import MemStream.Proofs.Counting

/-!
# `MemStream.Proofs.Sides` — what closing a side means

The mode of a buffer says which of its sides there ever are, and a side that is closed stays closed. Without the writing
side, store and valid elements stay as they are, until the elements are handed out. Without either side, nothing can be
done with a buffer any more: whatever is asked of it is refused, and it stays as it is.

The last of these hangs on more than the sides. Settlements, commits and giving up a reservation do not look at the
sides at all; on a closed buffer they come to nothing because the close left no lease, no reservation and no tail.

## Contents
- **Without the writing side.** `perform_unwritten`: the elements stay; `Run.unheld`: there is no reservation.
- **Without either side.** `Operation.refusal` is the answer of a closed buffer, `Shut` what makes it give that answer,
  and `perform_shut` the proof that it does.
- **Runs.** `Run.narrows`, `Run.shut`, and all together in `sides_close_for_good`.
-/

namespace MemStream

open StateAction

/-! ## Sides and modes -/

/-- A buffer with `readOpen` was opened for `reading` alone. -/
theorem Access.Coherent.mode_of_readOpen {a : Access} (h : a.Coherent) (hr : a.readOpen = true) :
    a.mode = .reading := by
  have hreads := h.reads_of_readOpen hr
  have hexclusive := h.exclusive
  rcases a with ⟨⟨reads, writes⟩, readOpen, writeOpen⟩
  cases writes with
  | true => exact absurd ⟨hreads, rfl⟩ hexclusive
  | false => exact congrArg (Directions.mk · false) hreads

/-- A buffer with `writeOpen` was opened for `writing` alone. -/
theorem Access.Coherent.mode_of_writeOpen {a : Access} (h : a.Coherent) (hw : a.writeOpen = true) :
    a.mode = .writing := by
  have hwrites := h.writes_of_writeOpen hw
  have hexclusive := h.exclusive
  rcases a with ⟨⟨reads, writes⟩, readOpen, writeOpen⟩
  cases reads with
  | true => exact absurd ⟨rfl, hwrites⟩ hexclusive
  | false => exact congrArg (Directions.mk false ·) hwrites

/-- The answer to `acquire` where the reading side is closed. -/
def Directions.barred {γ : Type} (mode : Directions) : Grant γ :=
  if mode.reads then .endOfStream else .refused

/-- What a closed buffer answers. Only a look at the store (`dataCopy`, `takeData`) gives anything, and waiting for the
    store (`sync`) succeeds. -/
def Operation.refusal {σ α : Type} [Store σ α] (b : Buffer σ) : Operation σ α → Answer σ α
  | .read _ _ | .peek _ => .taken Store.empty
  | .readOne _ | .skipOne | .stepBack | .writeOne _ => .element none
  | .write _ | .stagingSize _ => .count 0
  | .seekTo _ _ | .seek _ _ => .position none
  | .sync => .flag true
  | .hintStaging _ _ => .done
  | .close _ | .abandon => .flag false
  | .takeData | .dataCopy => .elements b.data
  | .acquire => .lease b.mode.barred
  | .borrow _ => .borrowed b.mode.barred
  | .release ticket _ => .settled (.error (.staleLease ticket.epoch b.epoch))
  | .reserve _ _ => .region none
  | .commit _ => .settled (.error .noPendingAllocation)
  | .reserveWith _ _ _ => .filled ⟨none, .ok 0⟩
  | .readToEnd => .elements Store.empty
  | .readExact count => .gathered (if count = 0 then .ok Store.empty else .error .unexpectedEnd)
  | .readText codec =>
      .text (match codec.decode Store.empty with
        | .ok text => .ok (0, text)
        | .error _ => .error .notText)
  | .writeAll elements => .stored (if Store.size elements = 0 then .ok () else .error .writeZero)
  | .seekAny target => .moved (.error (.seekRejected target.outline.oneLine))

namespace Buffer

variable {σ α : Type} [Store σ α] [LawfulStore σ] {b c : Buffer σ}

/-! ## Without the writing side -/

/-- Nothing is reserved where nothing can be written: without `canWrite` there is no `reservation`. -/
def Unheld (b : Buffer σ) : Prop :=
  b.canWrite = false → b.reservation = none

omit [LawfulStore σ] in
theorem Unheld.of_none (hres : b.reservation = none) : b.Unheld :=
  fun _ => hres

omit [LawfulStore σ] in
theorem Unheld.of_canWrite (hw : b.canWrite = true) : b.Unheld :=
  fun hclosed => absurd (hw.symm.trans hclosed) Bool.noConfusion

omit [LawfulStore σ] in
theorem Unheld.congr (h : b.Unheld) (hw : c.canWrite = b.canWrite) (hres : c.reservation = b.reservation) : c.Unheld :=
  fun hclosed => hres.trans (h (hw.symm.trans hclosed))

omit [LawfulStore σ] in
/-- A `close` that closes the writing side takes the reservation with it, and so does every settlement. -/
theorem Change.unheld (hchange : Change b c) (h : b.Unheld) : c.Unheld := by
  cases hchange with
  | pass p n _ _ _ => exact h.congr rfl rfl
  | trim => exact h.congr (canWrite_trimmed b) (reservation_trimmed b)
  | write elements hw _ => exact .of_canWrite ((canWrite_extended b _).trans hw)
  | seek p hw _ => exact .of_canWrite ((canWrite_extended b p).trans hw)
  | reserve n filling hw _ => exact .of_canWrite ((canWrite_filled b n filling).trans hw)
  | commit r count _ _ _ _ _ => exact .of_none (reservation_trimmed (b.unreserved.moved (b.head + count)))
  | abandon => exact .of_none (reservation_trimmed b.unreserved)
  | close direction hc =>
      rw [closed_of_closes hc]
      exact .of_none (reservation_trimmed _)
  | empty _ => exact h.congr (canWrite_trimmed b) (reservation_trimmed b)

omit [LawfulStore σ] in
/-- A chain of `Changes` leaves nothing reserved where nothing can be written. -/
theorem Changes.unheld (hchanges : Changes b c) (h : b.Unheld) : c.Unheld := by
  induction hchanges with
  | refl => exact h
  | tail _ hstep ih => exact hstep.unheld ih

/-- Whatever ticket it presents, an operation leaves the buffer `Unheld`. -/
theorem perform_unheld (hordered : b.Ordered) (h : b.Unheld) {operation : Operation σ α} (hfits : operation.Fits)
    {step : Step (Buffer σ) Event (Answer σ α)} (hrun : operation.perform.run b = .ok step) : step.state.Unheld := by
  rcases perform_cases hordered hfits hrun with hturn | ⟨p, -, hstate⟩ | ⟨count, -, hstate⟩ | ⟨-, hstate⟩
  · exact (hturn.changes hordered).unheld h
  · rw [hstate]
    exact h.congr rfl rfl
  · rw [hstate]
    exact .of_none (reservation_trimmed _)
  · rw [hstate]
    exact (Changes.emptied b).unheld h

omit [LawfulStore σ] in
/-- Without the writing side there is no tail to drop, and no `Turn` touches the elements. -/
theorem Turn.unwritten (hturn : Turn b c) (hw : b.canWrite = false) (huntailed : b.capacity = b.valid) :
    c.data = b.data ∧ c.valid = b.valid := by
  have hnone : ∀ {P : Prop}, b.canWrite = true → P := fun hopen => absurd (hopen.symm.trans hw) Bool.noConfusion
  cases hturn with
  | browse hbrowsed =>
      cases hbrowsed with
      | stay => exact ⟨rfl, rfl⟩
      | pass p n _ _ _ _ => exact ⟨rfl, rfl⟩
  | trim =>
      rw [trimmed_eq_self b (Nat.le_of_eq huntailed)]
      exact ⟨rfl, rfl⟩
  | write elements hopen _ => exact hnone hopen
  | seek p hopen _ => exact hnone hopen
  | reserve n filling hg => exact hnone (grants_iff.mp hg).1
  | reserveAndCommit n filling count hg _ => exact hnone (grants_iff.mp hg).1
  | reserveAndAbandon n filling hg => exact hnone (grants_iff.mp hg).1
  | abandon =>
      unfold Buffer.abandoned
      rw [trimmed_eq_self b.unreserved (Nat.le_of_eq huntailed)]
      exact ⟨rfl, rfl⟩
  | close direction hc =>
      rw [closed_of_closes hc]
      rw [trimmed_eq_self { b with access := b.access.close direction, changes := b.changes + 1, reservation := none }
        (Nat.le_of_eq huntailed)]
      exact ⟨rfl, rfl⟩

omit [LawfulStore σ] in
theorem valid_moved_of_not_canWrite (hw : b.canWrite = false) (p : Nat) : (b.moved p).valid = b.valid := by
  rw [valid_moved, hw]
  rfl

/-- **Without the writing side the elements stay**, whatever is done but `takeData`. -/
theorem perform_unwritten (h : b.Neat) (hw : b.canWrite = false) {operation : Operation σ α} (hfits : operation.Fits)
    (hother : operation ≠ .takeData) {step : Step (Buffer σ) Event (Answer σ α)}
    (hrun : operation.perform.run b = .ok step) : step.state.data = b.data ∧ step.state.valid = b.valid := by
  have huntailed := h.untailed hw
  rcases perform_cases h.ordered hfits hrun with hturn | ⟨p, -, hstate⟩ | ⟨count, -, hstate⟩ | ⟨htake, -⟩
  · exact hturn.unwritten hw huntailed
  · rw [hstate]
    exact ⟨rfl, valid_moved_of_not_canWrite hw p⟩
  · have hvalid : (b.unreserved.moved (b.head + count)).valid = b.valid :=
      valid_moved_of_not_canWrite (b := b.unreserved) hw (b.head + count)
    have hnone : (b.unreserved.moved (b.head + count)).capacity ≤ (b.unreserved.moved (b.head + count)).valid := by
      rw [hvalid]
      exact Nat.le_of_eq huntailed
    rw [hstate, Buffer.committed, trimmed_eq_self _ hnone]
    exact ⟨rfl, hvalid⟩
  · exact absurd htake hother

/-! ## Without either side -/

/-- Closed on both sides, with no `reservation` and with `capacity = valid`. -/
structure Shut (b : Buffer σ) : Prop where
  ordered : b.Ordered
  canRead : b.canRead = false
  canWrite : b.canWrite = false
  reservation : b.reservation = none
  untailed : b.capacity = b.valid

omit [LawfulStore σ] in
/-- A buffer that is `Shut` rejects every seek and stays as it is. -/
theorem Shut.seekTo (h : b.Shut) (p : Nat) (direction : Directions) :
    (seekTo p direction).run b = .ok ⟨none, b, b.seekEvents p direction⟩ := by
  unfold Buffer.seekTo
  rw [run_look_bind, run_ite, run_ite, if_neg, if_neg]
  · rfl
  · rintro ⟨-, hopen⟩
    exact Bool.false_ne_true (h.canWrite.symm.trans hopen)
  · rintro ⟨-, hopen, -⟩
    exact Bool.false_ne_true (h.canRead.symm.trans hopen)

omit [LawfulStore σ] in
theorem Shut.seek (h : b.Shut) (target : Target) (direction : Directions) :
    ∃ events, (seek target direction).run b = .ok ⟨none, b, events⟩ := by
  rw [run_seek]
  cases target.position? b.cursor with
  | none => exact ⟨_, rfl⟩
  | some p => exact ⟨_, h.seekTo p direction⟩

/-- Nothing can be read of a buffer that is `Shut`. -/
theorem Shut.read (h : b.Shut) (count : Nat) (advance : Bool) :
    (read count advance).run b = .ok ⟨Store.empty, b, []⟩ := by
  rw [run_read h.ordered, upcoming_of_not_canRead h.canRead, consumed_of_not_canRead h.canRead, ite_self]

omit [LawfulStore σ] in
theorem Shut.stepBack (h : b.Shut) : ∃ events, (stepBack (σ := σ)).run b = .ok ⟨none, b, events⟩ := by
  obtain ⟨events, hseek⟩ := h.seek (.current (-1)) .reading
  unfold Buffer.stepBack
  rw [run_bind_of_run hseek]
  exact ⟨_, rfl⟩

omit [LawfulStore σ] in
theorem Shut.seekAny (h : b.Shut) (target : Target) :
    ∃ events, (seekAny target).run b = .ok ⟨.error (.seekRejected target.outline.oneLine), b, events⟩ := by
  obtain ⟨events, hseek⟩ := h.seek target (if b.canRead then .reading else .writing)
  unfold Buffer.seekAny
  rw [run_look_bind, run_bind_of_run hseek]
  exact ⟨_, rfl⟩

omit [LawfulStore σ] in
theorem Shut.close (h : b.Shut) (direction : Directions) : (close direction).run b = .ok ⟨false, b, []⟩ := by
  have hcloses : b.access.closes direction = false := by
    show (direction.reads && b.canRead || direction.writes && b.canWrite) = false
    rw [h.canRead, h.canWrite, Bool.and_false, Bool.and_false]
    rfl
  rw [run_close, closed_eq_self hcloses, closeEvents, hcloses]
  rfl

omit [LawfulStore σ] in
/-- The answer of a buffer that is `Shut` is that of its mode, `Directions.barred`. -/
theorem Shut.acquire (h : b.Shut) : acquire.run b = .ok ⟨b.mode.barred, b, []⟩ := by
  rw [run_acquire h.ordered, offer_of_not_canRead h.canRead]
  rfl

omit [LawfulStore σ] in
theorem Shut.borrow (h : b.Shut) (settle : Option Nat) : (borrow settle).run b = .ok ⟨b.mode.barred, b, []⟩ := by
  rw [run_borrow h.ordered, offer_of_not_canRead h.canRead]
  unfold Directions.barred
  cases b.mode.reads <;> rfl

/-- No room is granted by a buffer that is `Shut`, so the filler is not asked. -/
theorem Shut.reserveWith (h : b.Shut) (count : Nat) (filler : σ → σ × Nat) :
    (reserveWith count filler).run b = .ok ⟨⟨none, .ok 0⟩, b, []⟩ := by
  rw [run_reserveWith h.ordered, grants_eq_false h.canWrite, denied_eq_self h.canWrite]
  simp [denyEvents, h.canWrite]

/-- A buffer that is `Shut` takes nothing, which is enough where there is nothing to write. -/
theorem Shut.writeAll (h : b.Shut) (elements : σ) :
    (writeAll elements).run b =
      .ok ⟨if Store.size elements = 0 then .ok () else .error .writeZero, b, []⟩ := by
  rw [run_writeAll h.ordered, write_of_not_canWrite h.ordered h.canWrite]
  split
  · rfl
  · rfl

theorem Shut.readText (h : b.Shut) (codec : Text.Codec σ) :
    (readText codec).run b =
      .ok ⟨match codec.decode Store.empty with
        | .ok text => .ok (0, text)
        | .error _ => .error .notText, b, []⟩ := by
  unfold Buffer.readText
  rw [run_bind_of_silent (run_gatherAll_of_not_canRead h.ordered h.canRead _)]
  cases codec.decode (Store.empty : σ) with
  | ok text => rw [Store.size_empty]; rfl
  | error flaw => rfl

theorem Shut.readExact (h : b.Shut) (count : Nat) :
    (readExact count).run b =
      .ok ⟨if count = 0 then .ok Store.empty else .error .unexpectedEnd, b, []⟩ := by
  unfold Buffer.readExact
  rw [run_bind_of_silent (run_gatherAll_of_not_canRead h.ordered h.canRead _), run_ite, Store.size_empty]
  simp only [eq_comm (a := 0)]
  split
  · rfl
  · rfl

/-- **A closed buffer refuses everything** (`Operation.refusal`) and stays as it is. -/
theorem perform_shut (h : b.Shut) {operation : Operation σ α} (hother : operation ≠ .takeData)
    (hticket : ∀ t, operation.presented? = some t → t.epoch ≠ b.epoch) :
    ∃ events, operation.perform.run b = .ok ⟨operation.refusal b, b, events⟩ := by
  have hempty : Store.head? (Store.empty : σ) = none := by
    rw [LawfulStore.head?_eq, Store.toList_empty]
    rfl
  have hreadOne : ∀ advance, (readOne (σ := σ) advance).run b = .ok ⟨none, b, []⟩ := by
    intro advance
    unfold readOne
    rw [run_bind_of_silent (h.read 1 advance), hempty]
    rfl
  cases operation with
  | read count advance => exact ⟨_, run_answer (h.read count advance) _⟩
  | peek count =>
      have hpeek : (Buffer.peek count).run b = .ok ⟨Store.empty, b, []⟩ := by
        rw [run_peek h.ordered, upcoming_of_not_canRead h.canRead]
      exact ⟨_, run_answer hpeek _⟩
  | readOne advance => exact ⟨_, run_answer (hreadOne advance) _⟩
  | skipOne =>
      have hskip : skipOne.run b = .ok ⟨none, b, []⟩ := by
        unfold skipOne
        rw [run_bind_of_silent (hreadOne true)]
        exact hreadOne false
      exact ⟨_, run_answer hskip _⟩
  | stepBack =>
      obtain ⟨events, hrun⟩ := h.stepBack
      exact ⟨_, run_answer hrun _⟩
  | write elements => exact ⟨_, run_answer (write_of_not_canWrite h.ordered h.canWrite elements) _⟩
  | writeOne element =>
      have hwrite : (writeOne element).run b = .ok ⟨none, b, []⟩ := by
        rw [run_writeOne, write_of_not_canWrite h.ordered h.canWrite]
        rfl
      exact ⟨_, run_answer hwrite _⟩
  | seekTo position direction => exact ⟨_, run_answer (h.seekTo position direction) _⟩
  | seek target direction =>
      obtain ⟨events, hrun⟩ := h.seek target direction
      exact ⟨_, run_answer hrun _⟩
  | sync => exact ⟨_, rfl⟩
  | stagingSize direction => exact ⟨_, rfl⟩
  | hintStaging size direction => exact ⟨_, rfl⟩
  | close direction => exact ⟨_, run_answer (h.close direction) _⟩
  | takeData => exact absurd rfl hother
  | dataCopy => exact ⟨_, rfl⟩
  | acquire => exact ⟨_, run_answer h.acquire _⟩
  | borrow settle => exact ⟨_, run_answer (h.borrow settle) _⟩
  | release ticket count => exact ⟨_, run_answer (run_release_stale (hticket ticket rfl) count) _⟩
  | reserve count filling =>
      have hreserve : (reserveAndFill count filling).run b = .ok ⟨none, b, b.denyEvents count⟩ := by
        rw [run_reserveAndFill h.ordered, grants_eq_false h.canWrite, denied_eq_self h.canWrite]
        rfl
      exact ⟨_, run_answer hreserve _⟩
  | commit count => exact ⟨_, run_answer (run_commit_none h.reservation count) _⟩
  | abandon =>
      have habandon : abandon.run b = .ok ⟨false, b, b.unreserved.trimEvents⟩ := by
        rw [run_abandon, abandoned_eq_self h.reservation h.untailed, h.reservation]
        rfl
      exact ⟨_, run_answer habandon _⟩
  | reserveWith count filling written => exact ⟨_, run_answer (h.reserveWith count _) _⟩
  | readToEnd => exact ⟨_, run_answer (run_gatherAll_of_not_canRead h.ordered h.canRead _) _⟩
  | readExact count => exact ⟨_, run_answer (h.readExact count) _⟩
  | readText codec => exact ⟨_, run_answer (h.readText codec) _⟩
  | writeAll elements => exact ⟨_, run_answer (h.writeAll elements) _⟩
  | seekAny target =>
      obtain ⟨events, hrun⟩ := h.seekAny target
      exact ⟨_, run_answer hrun _⟩

end Buffer

/-! ## Runs -/

variable {σ α : Type} [Store σ α] [LawfulStore σ] {b c : Buffer σ} {entries : List (Entry σ α)}

/-- Over a whole run, the access only ever `Narrows`. -/
theorem Run.narrows (h : Run b entries c) (hb : b.Neat) : b.access.Narrows c.access := by
  induction h with
  | done b => exact .refl _
  | next hfits hrun _ ih =>
      exact (Buffer.narrows_of_perform hb.ordered hfits hrun).trans (ih (hb.perform hfits hrun))

/-- Between an entry and the end of its run, the access `Narrows`: no side opens. -/
theorem Run.narrows_from (h : Run b entries c) (hb : b.Neat) {e : Entry σ α} (he : e ∈ entries) :
    e.before.access.Narrows c.access := by
  obtain ⟨earlier, later, events, -, hearlier, hfits, hperform, hlater⟩ := h.of_mem he
  have hbefore := hearlier.neat hb
  have hstep := Buffer.narrows_of_perform hbefore.ordered hfits hperform
  exact hstep.trans (hlater.narrows (hbefore.perform hfits hperform))

theorem Run.unheld (h : Run b entries c) (hb : b.Neat) (hunheld : b.Unheld) : c.Unheld := by
  induction h with
  | done b => exact hunheld
  | next hfits hrun _ ih => exact ih (hb.perform hfits hrun) (Buffer.perform_unheld hb.ordered hunheld hfits hrun)

omit [LawfulStore σ] in
theorem Buffer.New.coherent (h : b.New) : b.access.Coherent :=
  h.guarded.coherent

omit [LawfulStore σ] in
theorem Buffer.New.unheld (h : b.New) : b.Unheld := by
  obtain ⟨data, mode, access, label, -, -, rfl⟩ := h
  exact .of_none rfl

/-- What a run of a new buffer left is `Shut` once both sides are closed, whatever tickets were settled on the way. -/
theorem Run.shut (h : Run b entries c) (hnew : b.New) (hclosed : c.isOpen = false) : c.Shut := by
  have hneat := h.neat hnew.neat
  obtain ⟨hr, hw⟩ := Bool.or_eq_false_iff.mp hclosed
  exact ⟨hneat.ordered, hr, hw, h.unheld hnew.neat hnew.unheld hw, hneat.untailed hw⟩

/-- A lease that was `granted` has another `epoch` than a buffer that cannot be read any more. -/
theorem Run.epoch_ne_of_closed (h : Run b entries c) (hnew : b.New) (hlimit : EpochsFit entries)
    (hr : c.canRead = false) {t : Ticket} (ht : t ∈ granted entries) : t.epoch ≠ c.epoch := by
  obtain ⟨hguard, -, hend⟩ := h.guarded hnew.guarded hnew.changes_lt hlimit
  intro hepoch
  have hopen := (hguard.lease t (.inr ht) ((Buffer.epoch_eq_iff hend).mp hepoch)).1
  rw [hr] at hopen
  cases hopen

/-- **Sides close for good.** However a buffer was made and whatever was done to it, with whatever tickets:
    - The `mode` never changes, at most one side is open, and only the side that the `mode` names.
    - A side that was closed before some operation is closed ever after.
    - A buffer that was not opened for writing keeps its store and its number of `valid` elements, until `takeData`
      hands the elements out.
    - Once both sides are closed, an operation other than `takeData` gets its `Operation.refusal` and leaves the buffer
      as it is, if it presents no ticket but those `granted` by this buffer and the epochs have not started over.
      Whoever was to fill a reservation is not asked. -/
theorem sides_close_for_good {first last : Buffer σ} (hnew : first.New) (hrun : Run first entries last) :
    last.mode = first.mode ∧ ¬ (last.canRead = true ∧ last.canWrite = true) ∧
      (last.canRead = true → last.mode = .reading) ∧ (last.canWrite = true → last.mode = .writing) ∧
      (∀ e ∈ entries, e.before.mode = first.mode ∧ (e.before.canRead = false → last.canRead = false) ∧
        (e.before.canWrite = false → last.canWrite = false)) ∧
      (first.mode = .reading ∨ first.mode = .none → ∀ e ∈ entries, e.operation ≠ .takeData →
        e.after.data = e.before.data ∧ e.after.valid = e.before.valid) ∧
      (OwnTickets entries → EpochsFit entries → last.isOpen = false →
        (∀ operation : Operation σ α, operation ≠ .takeData →
          (∀ t, operation.presented? = some t → t ∈ granted entries) →
            ∃ events, operation.perform.run last = .ok ⟨operation.refusal last, last, events⟩) ∧
        ∀ (count : Nat) (filler : σ → σ × Nat),
          (Buffer.reserveWith count filler).run last = .ok ⟨⟨none, .ok 0⟩, last, []⟩) := by
  have hneat := hnew.neat
  have hnarrows := hrun.narrows hneat
  have hcoherent := hnew.coherent.narrows hnarrows
  refine ⟨hnarrows.mode, ?_, hcoherent.mode_of_readOpen, hcoherent.mode_of_writeOpen, ?_, ?_, ?_⟩
  · rintro ⟨hr, hw⟩
    exact Bool.false_ne_true ((hcoherent.writeOpen_eq_false hr).symm.trans hw)
  · intro e he
    have hfrom := hrun.narrows_from hneat he
    refine ⟨hfrom.mode.symm.trans hnarrows.mode, ?_, ?_⟩
    · intro hr
      exact Bool.eq_false_iff.mpr fun hopen => Bool.false_ne_true (hr.symm.trans (hfrom.readOpen hopen))
    · intro hw
      exact Bool.eq_false_iff.mpr fun hopen => Bool.false_ne_true (hw.symm.trans (hfrom.writeOpen hopen))
  · intro hmode e he hother
    obtain ⟨earlier, later, events, -, hearlier, hfits, hperform, -⟩ := hrun.of_mem he
    have hwrite : e.before.canWrite = false := by
      cases hw : e.before.canWrite with
      | false => rfl
      | true =>
          -- an open writing side would need a mode that names it
          have hbefore := hearlier.narrows hneat
          have hwriting := (hnew.coherent.narrows hbefore).mode_of_writeOpen hw
          rw [hbefore.mode] at hwriting
          rcases hmode with hmode | hmode
          · exact absurd (hmode.symm.trans hwriting) (by decide)
          · exact absurd (hmode.symm.trans hwriting) (by decide)
    exact Buffer.perform_unwritten (hearlier.neat hneat) hwrite hfits hother hperform
  · intro hown hlimit hclosed
    have hshut := hrun.shut hnew hclosed
    constructor
    · intro operation hother hticket
      apply Buffer.perform_shut hshut hother
      intro t ht
      exact hrun.epoch_ne_of_closed hnew hlimit hshut.canRead (hticket t ht)
    · intro count filler
      exact hshut.reserveWith count filler

/-- A reader of two bytes lends them, is closed, and is asked by `release` to settle the lease: it refuses, and the two
    bytes are still there. -/
theorem sides_close_for_good_lent :
    ∃ (entries : List (Entry SmallBytes UInt8)) (first last : Buffer SmallBytes) (events : List Event),
      first.New ∧ Run first entries last ∧ OwnTickets entries ∧ EpochsFit entries ∧ last.isOpen = false ∧
        last.mode = .reading ∧ Store.toList last.data = [1, 2] ∧
        (Operation.release ⟨0, 0, 2⟩ 1 : Operation SmallBytes UInt8).perform.run last =
          .ok ⟨.settled (.error (.staleLease 0 1)), last, events⟩ := by
  let first : Buffer SmallBytes := Buffer.start ⟨#[1, 2]⟩ .reader "r"
  let last : Buffer SmallBytes := { first with access := ⟨.reading, false, false⟩, changes := 1 }
  let lend : Entry SmallBytes UInt8 := ⟨first, .acquire, .lease (.granted ⟨⟨#[1, 2]⟩, ⟨0, 0, 2⟩⟩), first⟩
  let close : Entry SmallBytes UInt8 := ⟨first, .close .both, .flag true, last⟩
  have hnew : first.New := ⟨⟨#[1, 2]⟩, .reading, .reader, "r", rfl, by decide, rfl⟩
  have hlend : lend.operation.perform.run first = .ok ⟨lend.answer, first, []⟩ := by
    cbv
  have hclose : close.operation.perform.run first = .ok ⟨close.answer, last, [⟨"r", .closed .both false⟩]⟩ := by
    cbv
  have hfits : lend.operation.Fits := trivial
  have hfits' : close.operation.Fits := trivial
  have hrun : Run first [lend, close] last := .next hfits hlend (.next hfits' hclose (.done last))
  have hown : OwnTickets [lend, close] := by
    apply OwnTickets.of_none
    intro e he
    rcases List.mem_cons.mp he with rfl | he
    · rfl
    · cases List.mem_singleton.mp he
      rfl
  have hlimit : EpochsFit [lend, close] := by
    intro e he
    rcases List.mem_cons.mp he with rfl | he
    · decide
    · cases List.mem_singleton.mp he
      decide
  obtain ⟨-, -, -, -, -, hkept, hrefuses⟩ := sides_close_for_good hnew hrun
  have hclosing : close.operation ≠ .takeData := fun h => by cases h
  have hsettling : (Operation.release ⟨0, 0, 2⟩ 1 : Operation SmallBytes UInt8) ≠ .takeData := fun h => by cases h
  have hdata : last.data = first.data :=
    (hkept (.inl rfl) close (List.mem_cons_of_mem _ List.mem_cons_self) hclosing).1
  obtain ⟨events, hrefused⟩ := (hrefuses hown hlimit rfl).1 (.release ⟨0, 0, 2⟩ 1) hsettling (by
    intro t ht
    cases ht
    exact List.mem_cons_self)
  exact ⟨[lend, close], first, last, events, hnew, hrun, hown, hlimit, rfl, rfl, congrArg Store.toList hdata, hrefused⟩

end MemStream
