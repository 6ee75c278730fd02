import MemStream.Proofs.Run
import MemStream.Store.Cells

/-!
# `MemStream.Proofs.Tail` — whom the tail belongs to

The store of a buffer may be longer than its valid elements. That happens for one reason only: a reservation of the
present epoch reaches beyond them, and then the store ends where the reservation ends. Whatever makes a reservation
stale takes its tail away in the same step.

## Contents
- **The invariant.** `Buffer.Exact`; `Buffer.Exact.untailed_iff` for when there is no tail.
- **Changes keep it.** `Change.exact`; a change that moves the epoch on leaves no reservation live
  (`Guarded.not_live`).
- **Runs.** `Run.exact`, and for runs of a new buffer that settle their own tickets `Run.guarded_exact` and
  `run_tail_exact`.
-/

namespace MemStream

open StateAction

namespace Buffer

variable {σ α : Type} [Store σ α] {own : Ticket → Prop} {b b' : Buffer σ}

/-! ## The invariant -/

/-- The store is as long as its `valid` elements and a `Live` reservation need it to be. -/
structure Exact (b : Buffer σ) : Prop where
  held : ∀ r, b.Live r → b.capacity = max b.valid (b.head + r.length)
  idle : (∀ r, ¬ b.Live r) → b.capacity = b.valid

/-- Without a `Live` reservation, a store that ends with the valid elements is `Exact`. -/
theorem Exact.of_idle (hcapacity : b.capacity = b.valid) (hidle : ∀ r, ¬ b.Live r) : b.Exact where
  held r hr := absurd hr (hidle r)
  idle _ := hcapacity

/-- A reservation from before is not `Live` once the epoch has moved on. -/
theorem Guarded.not_live (h : b.Guarded own) (hlt : b.changes < b'.changes)
    (hres : ∀ r, b'.reservation = some r → b.reservation = some r) (r : Reservation) : ¬ b'.Live r := by
  intro hr
  have hold := h.reserved r (hres r hr.1)
  have hepoch := hr.2
  omega

/-- Nothing is reserved for a reader, so one that is `Exact` has no tail. -/
theorem Exact.capacity_of_canRead (hexact : b.Exact) (h : b.Guarded own) (hr : b.canRead = true) :
    b.capacity = b.valid := by
  apply hexact.idle
  intro r hlive
  have hread := h.not_canRead_of_canWrite (h.live r hlive).1
  rw [hr] at hread
  cases hread

/-- A tail belongs to a reservation that could still be committed, one of the present `epoch`. -/
theorem Exact.untailed_iff (hexact : b.Exact) (hlimit : b.changes < epochLimit) :
    b.capacity ≤ b.valid ↔
      ∀ r, b.reservation = some r → r.epoch = b.epoch → b.head + r.length ≤ b.valid := by
  constructor
  · intro hcapacity r hres hepoch
    have hheld := hexact.held r ⟨hres, (epoch_eq_iff hlimit).mp hepoch⟩
    omega
  · intro hinside
    by_cases hlive : ∃ r, b.Live r
    · obtain ⟨r, hlive⟩ := hlive
      have hroom := hinside r hlive.1 ((epoch_eq_iff hlimit).mpr hlive.2)
      have hheld := hexact.held r hlive
      omega
    · exact Nat.le_of_eq (hexact.idle fun r hr => hlive ⟨r, hr⟩)

variable [LawfulStore σ]

theorem capacity_trimmed_of_ordered (h : b.Ordered) : b.trimmed.capacity = b.trimmed.valid := by
  rw [valid_trimmed]
  exact capacity_trimmed_eq_valid h

/-! ## Changes keep it -/

/-- To be `trimmed` makes a reservation with a tail stale, so the buffer stays `Exact`. -/
theorem Exact.trimmed (hexact : b.Exact) (h : b.Guarded own) : b.trimmed.Exact := by
  by_cases htail : b.valid < b.capacity
  · -- dropping the tail moves the epoch on, so that a reservation that needed it is no longer live
    refine .of_idle (capacity_trimmed_of_ordered h.ordered) (h.not_live ?_ ?_)
    · rw [changes_trimmed, if_pos htail]
      exact Nat.lt_succ_self _
    · intro r hr
      rwa [reservation_trimmed] at hr
  · rw [trimmed_eq_self b (Nat.not_lt.mp htail)]
    exact hexact

/-- Without a reservation, a buffer that is `trimmed` has nothing uncommitted. -/
theorem exact_trimmed (h : b.Ordered) (hres : b.reservation = none) : b.trimmed.Exact := by
  apply Exact.of_idle (capacity_trimmed_of_ordered h)
  intro r hr
  have hsome := hr.1
  rw [reservation_trimmed, hres] at hsome
  cases hsome

/-- Once `written`, there is nothing behind the `valid` elements. -/
theorem capacity_written (h : b.Ordered) (hw : b.canWrite = true) (elements : σ) :
    (b.written elements).capacity = (b.written elements).valid := by
  have hfit := head_add_le_capacity_extended (n := Store.size elements) h (Nat.le_refl _)
  rw [valid_written elements hw]
  show ((b.extended (b.head + Store.size elements)).placed b.head elements).capacity = _
  rw [capacity_placed hfit, capacity_extended _ h]

/-- After a seek of a writer, `extended` and `moved`, there is nothing behind the `valid` elements. -/
theorem capacity_sought (h : b.Ordered) (hw : b.canWrite = true) (p : Nat) :
    ((b.extended p).moved p).capacity = ((b.extended p).moved p).valid := by
  rw [capacity_moved, capacity_extended p h, valid_moved, canWrite_extended, if_pos hw, valid_extended]

theorem exact_written (h : b.Guarded own) (hw : b.canWrite = true) (elements : σ) : (b.written elements).Exact :=
  .of_idle (capacity_written h.ordered hw elements)
    (h.not_live (changes_lt_written b elements) fun _ hr => (reservation_extended b _).symm.trans hr)

theorem exact_sought (h : b.Guarded own) (hw : b.canWrite = true) (p : Nat) : ((b.extended p).moved p).Exact :=
  .of_idle (capacity_sought h.ordered hw p)
    (h.not_live (changes_lt_sought b p) fun _ hr => (reservation_extended b p).symm.trans hr)

omit [LawfulStore σ] in
/-- A new reservation is `Live`, unless its epoch does not fit into 64 bits. -/
theorem live_filled (b : Buffer σ) (n : Nat) (filling : σ) (hlimit : (b.filled n filling).changes < epochLimit) :
    (b.filled n filling).Live ⟨UInt64.ofNat (b.filled n filling).changes, n⟩ :=
  ⟨rfl, toNat_epoch hlimit⟩

/-- The store is `extended` for a new reservation and for nothing else, so it is `Exact`. -/
theorem exact_filled (h : b.Ordered) (n : Nat) (filling : σ) (hlimit : (b.filled n filling).changes < epochLimit) :
    (b.filled n filling).Exact where
  held r hr := by
    obtain ⟨hres, -⟩ := hr
    cases hres
    rw [capacity_filled h, valid_filled, head_filled]
  idle hidle := absurd (live_filled b n filling hlimit) (hidle _)

theorem exact_closed (h : b.Ordered) {direction : Directions} (hc : b.access.closes direction = true) :
    (b.closed direction).Exact := by
  rw [closed_of_closes hc]
  exact exact_trimmed (b := { b with
    access := b.access.close direction, changes := b.changes + 1, reservation := none })
    ⟨h.head_le, h.valid_le, h.capacity_lt⟩ rfl

/-- **Every `Change` leaves the store `Exact`**, if the epochs do not start over. -/
theorem Change.exact (hchange : Change b b') (h : b.Guarded own) (hlimit : b'.changes < epochLimit)
    (hexact : b.Exact) : b'.Exact := by
  cases hchange with
  | pass p n hr hp hn =>
      refine .of_idle (hexact.capacity_of_canRead h hr) (h.not_live (Nat.lt_add_of_pos_right hn) fun _ hres => hres)
  | trim => exact hexact.trimmed h
  | write elements hw _ => exact exact_written h hw elements
  | seek p hw _ => exact exact_sought h hw p
  | reserve n filling _ _ => exact exact_filled h.ordered n filling hlimit
  | commit r count hres hepoch hw hroom hcount =>
      -- the reservation is taken out before the tail goes
      refine exact_trimmed (h.ordered.moved_unreserved hw ?_) rfl
      omega
  | abandon => exact exact_trimmed h.ordered.unreserved rfl
  | close direction hc => exact exact_closed h.ordered hc
  | empty hopen =>
      -- the epoch does not move on here; it is the closed writing side that rules a live reservation out
      have hopen' : b.trimmed.isOpen = false := by
        rw [isOpen, access_trimmed]
        exact hopen
      have hguard := h.trimmed.emptied hopen'
      apply Exact.of_idle Store.size_empty
      intro r hr
      have hwrite : b.trimmed.canWrite = true := (hguard.live r hr).1
      have hclosed : b.trimmed.canWrite = false := (Bool.or_eq_false_iff.mp hopen').2
      rw [hwrite] at hclosed
      cases hclosed

/-- So does every chain of `Changes`. -/
theorem Changes.exact (hchanges : Changes b b') (h : b.Guarded own) (hlimit : b'.changes < epochLimit)
    (hexact : b.Exact) : b'.Exact := by
  induction hchanges with
  | refl => exact hexact
  | tail hearlier hstep ih =>
      have hmiddle := Nat.lt_of_le_of_lt hstep.changes_le hlimit
      exact hstep.exact (Changes.guarded hearlier h) hlimit (ih hmiddle)

end Buffer

/-! ## Runs -/

variable {σ α : Type} [Store σ α] [LawfulStore σ] {b c : Buffer σ} {entries : List (Entry σ α)}

omit [LawfulStore σ] in
/-- A new buffer is `Exact`: all its elements are valid. -/
theorem Buffer.New.exact (h : b.New) : b.Exact := by
  obtain ⟨data, mode, access, label, -, -, rfl⟩ := h
  exact .of_idle rfl fun r hr => by cases hr.1

/-- What holds of tickets granted before a `Run` or in it, holds of a run without its first entry; so `Exact` is carried
    through. -/
theorem Run.exact {own : Ticket → Prop} (hrun : Run b entries c) (h : b.Guarded own) (hexact : b.Exact)
    (hstart : b.changes < epochLimit) (hlimit : EpochsFit entries)
    (hown : ∀ earlier e later, entries = earlier ++ e :: later →
      ∀ t, e.operation.presented? = some t → own t ∨ t ∈ granted earlier) : c.Exact := by
  -- on the way the tickets that the buffer has granted become more, so they are generalized over
  induction hrun generalizing own with
  | done b => exact hexact
  | @next b c operation step entries hfits hperform _ ih =>
      have hfirst : ∀ t, operation.presented? = some t → own t := by
        intro t ht
        rcases hown [] _ entries rfl t ht with hold | hnew
        · exact hold
        · cases hnew
      obtain ⟨other, hother, hchanges⟩ := Buffer.perform_changes h hstart hfits hfirst
      rw [hperform] at hother
      cases hother
      have hnext := hlimit _ List.mem_cons_self
      apply ih (h.perform hstart hfits hperform).1 (hchanges.exact h hnext hexact) hnext hlimit.tail
      rintro earlier e later rfl t ht
      have hticket := hown (_ :: earlier) e later rfl t ht
      rw [granted_cons] at hticket
      exact or_assoc.mpr hticket

/-- What a `Run` from a new buffer comes to: everything granted and not stale fits (`Guarded`), and the tail is no
    longer than that (`Exact`). -/
theorem Run.guarded_exact {first last : Buffer σ} (hrun : Run first entries last) (hnew : first.New)
    (hown : OwnTickets entries) (hlimit : EpochsFit entries) :
    last.Guarded (fun t => t ∈ granted entries) ∧ last.Exact ∧ last.changes < epochLimit := by
  obtain ⟨hguard, -, hend⟩ := hrun.guarded hnew.guarded hnew.changes_lt hlimit
  refine ⟨hguard.of_subset fun _ ht => .inr ht, ?_, hend⟩
  apply hrun.exact hnew.guarded hnew.exact hnew.changes_lt hlimit
  intro earlier e later hsplit t ht
  exact .inr (hown earlier e later hsplit t ht)

/-- **A store is exactly as long as it has to be.** In every state of a `Run` with `OwnTickets`: a reservation of the
    present `epoch` belongs to an open writer, ends at a position, and the store ends with it or with the `valid`
    elements; without such a reservation, and in particular without an open writing side, the store ends with the
    `valid` elements. -/
theorem run_tail_exact {first last : Buffer σ} (hnew : first.New) (hrun : Run first entries last)
    (hown : OwnTickets entries) (hlimit : EpochsFit entries) :
    (∀ r, last.reservation = some r → r.epoch = last.epoch →
        last.canWrite = true ∧ last.head + r.length < positionLimit ∧
          last.capacity = max last.valid (last.head + r.length)) ∧
      ((∀ r, last.reservation = some r → r.epoch ≠ last.epoch) → last.capacity = last.valid) ∧
      (last.canWrite = false → last.capacity = last.valid) := by
  obtain ⟨hguard, -, hend⟩ := hrun.guarded hnew.guarded hnew.changes_lt hlimit
  have hexact : last.Exact := by
    apply hrun.exact hnew.guarded hnew.exact hnew.changes_lt hlimit
    intro earlier e later hsplit t ht
    exact .inr (hown earlier e later hsplit t ht)
  refine ⟨?_, ?_, ?_⟩
  · intro r hres hepoch
    have hlive : last.Live r := ⟨hres, (Buffer.epoch_eq_iff hend).mp hepoch⟩
    obtain ⟨hw, hroom⟩ := hguard.live r hlive
    exact ⟨hw, Nat.lt_of_le_of_lt hroom hguard.ordered.capacity_lt, hexact.held r hlive⟩
  · intro hstale
    exact hexact.idle fun r hlive => hstale r hlive.1 ((Buffer.epoch_eq_iff hend).mpr hlive.2)
  · intro hclosed
    apply hexact.idle
    intro r hlive
    have hw := (hguard.live r hlive).1
    rw [hclosed] at hw
    cases hw

/-- A writer of two bytes that did `reserve` three: the store has five, of which two are valid. -/
theorem run_tail_exact_reserved :
    ∃ (entries : List (Entry SmallBytes UInt8)) (first last : Buffer SmallBytes),
      first.New ∧ Run first entries last ∧ OwnTickets entries ∧ EpochsFit entries ∧
        last.valid = 2 ∧ last.canWrite = true ∧ last.capacity = max 2 (2 + 3) := by
  let first : Buffer SmallBytes := Buffer.start ⟨#[1, 2]⟩ .writer "w"
  let last : Buffer SmallBytes :=
    { data := ⟨#[1, 2, 7, 0, 0]⟩, cursor := ⟨2, 2⟩, access := .writer, changes := 1,
      reservation := some ⟨1, 3⟩, label := "w" }
  let entry : Entry SmallBytes UInt8 := ⟨first, .reserve 3 ⟨#[7]⟩, .region (some ⟨#[0, 0, 0]⟩), last⟩
  have hnew : first.New := ⟨⟨#[1, 2]⟩, .writing, .writer, "w", rfl, by decide, rfl⟩
  have hperform : entry.operation.perform.run first =
      .ok ⟨entry.answer, last, [⟨"w", .storeResizing 2 5⟩]⟩ := by
    cbv
  have hfits : entry.operation.Fits := trivial
  have hrun : Run first [entry] last := .next hfits hperform (.done last)
  have hown : OwnTickets [entry] := by
    intro earlier e later hsplit t ht
    have hmem : e ∈ [entry] := by
      rw [hsplit]
      exact List.mem_append_right earlier List.mem_cons_self
    cases List.mem_singleton.mp hmem
    cases ht
  have hlimit : EpochsFit [entry] := by
    intro e he
    cases List.mem_singleton.mp he
    decide
  obtain ⟨hheld, -, -⟩ := run_tail_exact hnew hrun hown hlimit
  obtain ⟨hw, -, hcapacity⟩ := hheld ⟨1, 3⟩ rfl (by decide)
  exact ⟨[entry], first, last, hnew, hrun, hown, hlimit, rfl, hw, hcapacity⟩

end MemStream
