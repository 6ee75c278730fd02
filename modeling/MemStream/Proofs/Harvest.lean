import MemStream.Proofs.Safety
import MemStream.Proofs.Tail

/-!
# `MemStream.Proofs.Harvest` — what a harvest yields

The last handle of a buffer takes its elements out; any other handle gets a copy of the store. Taking cuts the tail off
first, and copying does not. So the two yield the same as long as there is no tail, and there is one exactly as long as
a reservation of the present epoch reaches beyond the valid elements: what nobody has committed is harvested with the
rest, but by a handle that is not the last.

## Contents
- **Elements.** `Buffer.toList_handedOut` for what is taken, `Run.untailed_iff` for when there is no tail.
- **Handles.** `run_collect`: collecting never fails, and its elements depend on the number of handles.
- **Harvests.** `harvest_exact_iff`.
-/

namespace MemStream

open StateAction

variable {σ α : Type} [Store σ α] [LawfulStore σ]

/-! ## Elements -/

/-- What `takeData` hands out is the `content`, wherever the buffer is closed by that or was closed before. -/
theorem Buffer.toList_handedOut (b : Buffer σ) : Store.toList (b.closed .both).trimmed.data = b.content := by
  rw [Buffer.toList_trimmed, Buffer.content_closed]

/-- A copy of the store has nothing but the `content` exactly where there is no tail. -/
theorem Buffer.toList_data_eq_content_iff (b : Buffer σ) :
    Store.toList b.data = b.content ↔ b.capacity ≤ b.valid := by
  constructor
  · intro h
    have hlength := congrArg List.length h
    unfold Buffer.content at hlength
    rw [List.length_take, Store.length_toList] at hlength
    unfold Buffer.capacity
    omega
  · intro h
    exact (Buffer.content_eq_toList h).symm

/-- A tail belongs to a reservation that could still be committed, in every `Run` with `OwnTickets`. -/
theorem Run.untailed_iff {entries : List (Entry σ α)} {first last : Buffer σ} (hrun : Run first entries last)
    (hnew : first.New) (hown : OwnTickets entries) (hlimit : EpochsFit entries) :
    last.capacity ≤ last.valid ↔
      ∀ r, last.reservation = some r → r.epoch = last.epoch → last.head + r.length ≤ last.valid := by
  obtain ⟨-, hexact, hend⟩ := hrun.guarded_exact hnew hown hlimit
  exact hexact.untailed_iff hend

/-! ## Handles -/

section Handles

omit [LawfulStore σ]

/-- To let go of a buffer by `Session.settle` never fails, and the slots stay as they are. -/
theorem run_settle (s : Session σ) (id : BufferId) :
    ∃ step, (Session.settle id : SessionAction σ Unit).run s = .ok step ∧ step.state.slots = s.slots := by
  unfold Session.settle
  rw [run_look_bind, run_ite]
  split
  · cases hfind : s.buffers.find? id with
    | none =>
        rw [run_bind_of_silent (run_within_none hfind _)]
        exact ⟨_, rfl, rfl⟩
    | some b =>
        rw [run_bind_of_ok (run_within_ok hfind (Buffer.run_retire b))]
        exact ⟨_, rfl, rfl⟩
  · exact ⟨_, rfl, rfl⟩

/-- To empty a slot by `Session.leave` never fails, and the other slots stay as they are. -/
theorem run_leave (s : Session σ) (slot : String) :
    ∃ step, (Session.leave slot : SessionAction σ Unit).run s = .ok step ∧ step.state.slots = s.slots.erase slot := by
  unfold Session.leave
  rw [run_look_bind, run_alter_bind]
  cases s.slots.find? slot with
  | none => exact ⟨_, rfl, rfl⟩
  | some old => exact run_settle _ old

/-- To `Session.collect` takes the elements with the last handle, and copies the store with any other. -/
theorem run_collect {s : Session σ} (slot : String) {id : BufferId} {b : Buffer σ}
    (hfind : s.buffers.find? id = some b) :
    ∃ step, (Session.collect slot id : SessionAction σ (Option σ)).run s = .ok step ∧
      step.value = some (if s.handles id = 1 then (b.closed .both).trimmed.data else b.data) := by
  have hwithin : ∃ first, (Session.within id (if s.handles id = 1 then Buffer.takeData else Buffer.dataCopy) :
      SessionAction σ (Option σ)).run s = .ok first ∧
        first.value = some (if s.handles id = 1 then (b.closed .both).trimmed.data else b.data) := by
    split
    · exact ⟨_, run_within_ok hfind (Buffer.run_takeData b), rfl⟩
    · exact ⟨_, run_within_ok hfind (run_look_bind _ b), rfl⟩
  obtain ⟨first, hfirst, hvalue⟩ := hwithin
  obtain ⟨last, hleave, -⟩ := run_leave first.state slot
  unfold Session.collect
  rw [run_look_bind, run_bind_of_ok hfirst, run_bind_of_ok hleave]
  exact ⟨_, rfl, hvalue⟩

end Handles

/-! ## Harvests -/

section Commands

omit [LawfulStore σ]

/-- The elements of both harvests, plain and as text, are those that `Session.collect` gives. -/
theorem run_harvest {s : Session σ} {slot : String} {id : BufferId} (hslot : s.slots.find? slot = some id)
    {step : Step (Session σ) Report (Option σ)} (hcollect : (Session.collect slot id).run s = .ok step) {elements : σ}
    (hvalue : step.value = some elements) (codec : Text.Codec σ) :
    (Command.harvest slot : Command σ α).perform.run s =
        .ok ⟨.answer (.elements elements), step.state, step.events⟩ ∧
      (Command.harvestText slot codec : Command σ α).perform.run s =
        .ok ⟨.text (Command.readHarvest codec elements), step.state, step.events⟩ := by
  constructor
  · show (Session.onSlot slot _).run s = _
    rw [run_onSlot, hslot]
    show StateAction.run (Session.collect slot id >>= _) s = _
    rw [run_bind_of_ok hcollect, hvalue]
    simp [Except.map]
  · show (Session.onSlot slot _).run s = _
    rw [run_onSlot, hslot]
    show StateAction.run (Session.collect slot id >>= _) s = _
    rw [run_bind_of_ok hcollect, hvalue]
    simp [Except.map]

end Commands

/-- **What a harvest yields.** In any session and with any number of other handles, a `harvest` never fails, and a
    `harvestText` reads the same elements:
    - the last handle yields the `content`, any other the whole store;
    - the harvest is the `content` exactly if the handle was the last or there is no tail;
    - of a buffer that came about by a `Run` with `OwnTickets`, there is no tail exactly if no reservation of the
      present epoch reaches beyond the valid elements. -/
theorem harvest_exact_iff (s : Session σ) {slot : String} {id : BufferId} {b : Buffer σ}
    (hslot : s.slots.find? slot = some id) (hfind : s.buffers.find? id = some b) (codec : Text.Codec σ) :
    (∃ (elements : σ) (plain text : Step (Session σ) Report (Reply σ α)),
      (Command.harvest slot : Command σ α).perform.run s = .ok plain ∧ plain.value = .answer (.elements elements) ∧
        (Command.harvestText slot codec : Command σ α).perform.run s = .ok text ∧
        text.value = .text (Command.readHarvest codec elements) ∧
        Store.toList elements = (if s.handles id = 1 then b.content else Store.toList b.data) ∧
        (Store.toList elements = b.content ↔ s.handles id = 1 ∨ b.capacity ≤ b.valid)) ∧
      ∀ (first : Buffer σ) (entries : List (Entry σ α)), first.New → Run first entries b → OwnTickets entries →
        EpochsFit entries → (b.capacity ≤ b.valid ↔
          ∀ r, b.reservation = some r → r.epoch = b.epoch → b.head + r.length ≤ b.valid) := by
  refine ⟨?_, fun first entries hnew hrun hown hlimit => hrun.untailed_iff hnew hown hlimit⟩
  obtain ⟨step, hcollect, hvalue⟩ := run_collect slot hfind
  obtain ⟨hplain, htext⟩ := run_harvest (α := α) hslot hcollect hvalue codec
  refine ⟨_, _, _, hplain, rfl, htext, rfl, ?_⟩
  by_cases hlast : s.handles id = 1
  · rw [if_pos hlast, if_pos hlast, Buffer.toList_handedOut]
    exact ⟨rfl, fun _ => .inl hlast, fun _ => rfl⟩
  · rw [if_neg hlast, if_neg hlast, Buffer.toList_data_eq_content_iff]
    exact ⟨rfl, .inr, fun hcase => hcase.resolve_left hlast⟩

/-- Two handles of a writer of two bytes, which did `reserve` two more and filled them. The first to be harvested yields
    four bytes, of which two are valid. -/
theorem harvest_exact_iff_shared :
    ∃ (s : Session SmallBytes) (b : Buffer SmallBytes) (step : Step (Session SmallBytes) Report (Reply SmallBytes UInt8)),
      s.slots.find? "a" = some 0 ∧ s.buffers.find? 0 = some b ∧ b.content = [1, 2] ∧
        (Command.harvest "a" : Command SmallBytes UInt8).perform.run s = .ok step ∧
        ∃ elements, step.value = .answer (.elements elements) ∧ Store.toList elements = [1, 2, 7, 8] := by
  let b : Buffer SmallBytes :=
    { data := ⟨#[1, 2, 7, 8]⟩, cursor := ⟨2, 2⟩, access := .writer, changes := 1,
      reservation := some ⟨1, 2⟩, label := "w" }
  let s : Session SmallBytes := ⟨⟨[(0, b)]⟩, ⟨[("b", 0), ("a", 0)]⟩, .empty, 1⟩
  have hslot : s.slots.find? "a" = some 0 := rfl
  have hfind : s.buffers.find? 0 = some b := rfl
  have hshared : ¬ s.handles 0 = 1 := by decide
  obtain ⟨⟨elements, step, -, hharvest, hvalue, -, -, helements, -⟩, -⟩ :=
    harvest_exact_iff (α := UInt8) s hslot hfind .utf8
  rw [if_neg hshared] at helements
  exact ⟨s, b, step, hslot, hfind, rfl, hharvest, elements, hvalue, helements⟩

/-- So it is not true that a `harvest` yields the `content` whoever shares the buffer: commands lead to a writer of two
    bytes with two handles and a reservation, and it yields more. -/
theorem not_every_harvest_valid :
    ¬ ∀ (s : Session SmallBytes) (ledger : Ledger) (slot : String) (id : BufferId) (b : Buffer SmallBytes)
        (step : Step (Session SmallBytes) Report (Reply SmallBytes UInt8)) (elements : SmallBytes),
      Session.Reached UInt8 s ledger → s.slots.find? slot = some id → s.buffers.find? id = some b →
        (Command.harvest slot : Command SmallBytes UInt8).perform.run s = .ok step →
        step.value = .answer (.elements elements) → Store.toList elements = b.content := by
  intro hall
  let opened : Buffer SmallBytes := Buffer.start ⟨#[1, 2]⟩ .writer defaultLabel
  let reserved : Buffer SmallBytes :=
    { opened with data := ⟨#[1, 2, 7, 8]⟩, changes := 1, reservation := some ⟨1, 2⟩ }
  let opening : Command SmallBytes UInt8 := .opening "a" (.configured { data := some ⟨#[1, 2]⟩ })
  let share : Command SmallBytes UInt8 := .share "a" "b"
  let reserve : Command SmallBytes UInt8 := .operation "a" (.reserve 2 ⟨#[7, 8]⟩) none
  let one : Session SmallBytes := ⟨⟨[(0, opened)]⟩, ⟨[("a", 0)]⟩, .empty, 1⟩
  let two : Session SmallBytes := ⟨⟨[(0, opened)]⟩, ⟨[("b", 0), ("a", 0)]⟩, .empty, 1⟩
  let held : Session SmallBytes := ⟨⟨[(0, reserved)]⟩, ⟨[("b", 0), ("a", 0)]⟩, .empty, 1⟩
  have hopening : opening.perform.run Session.empty =
      .ok ⟨.done, one, [⟨some 0, ⟨defaultLabel, .opened .writing 2⟩⟩]⟩ := rfl
  have hshare : share.perform.run one = .ok ⟨.done, two, []⟩ := rfl
  have hroom : (Operation.reserve 2 ⟨#[7, 8]⟩ : Operation SmallBytes UInt8).perform.run opened =
      .ok ⟨.region (some ⟨#[0, 0]⟩), reserved, [⟨defaultLabel, .storeResizing 2 4⟩]⟩ := by
    cbv
  have hreserve : reserve.perform.run two =
      .ok ⟨.answer (.region (some ⟨#[0, 0]⟩)), held, [⟨some 0, ⟨defaultLabel, .storeResizing 2 4⟩⟩]⟩ := by
    have hentered : two.slots.find? "a" = some 0 := rfl
    have hopen : two.buffers.find? 0 = some opened := rfl
    show StateAction.run (Session.onSlot "a" _) two = _
    rw [run_onSlot, hentered]
    show StateAction.run (Session.within 0 _ >>= _) two = _
    rw [run_bind_of_ok (run_within_ok hopen hroom)]
    rfl
  have hempty : (Session.empty : Session SmallBytes).EpochsFit := .of_entries (by decide)
  have hone : one.EpochsFit := .of_entries (by decide)
  have htwo : two.EpochsFit := .of_entries (by decide)
  have hfits : opening.Fits := (by decide : 2 < positionLimit)
  have hopened : Session.Reached UInt8 one [] := .next .start hempty hfits hopening
  have hplain : share.Fits := trivial
  have hplain' : reserve.Fits := trivial
  have hboth : Session.Reached UInt8 two ([] ++ share.grants one) := .next hopened hone hplain hshare
  have hreached : Session.Reached UInt8 held ([] ++ share.grants one ++ reserve.grants two) :=
    .next hboth htwo hplain' hreserve
  have hslot : held.slots.find? "a" = some 0 := rfl
  have hfind : held.buffers.find? 0 = some reserved := rfl
  have hshared : ¬ held.handles 0 = 1 := by decide
  obtain ⟨step, hcollect, hvalue⟩ := run_collect "a" hfind
  rw [if_neg hshared] at hvalue
  obtain ⟨hharvest, -⟩ := run_harvest (α := UInt8) hslot hcollect hvalue .utf8
  have hequal : ([1, 2, 7, 8] : List UInt8) = [1, 2] := hall held _ "a" 0 reserved _ _ hreached hslot hfind hharvest rfl
  exact absurd hequal (by decide)

end MemStream
