import MemStream.Proofs.Performing

/-!
# `MemStream.Proofs.Leftover` — buffers that differ in their tails

Whoever was granted room and filled it leaves something behind the valid elements. It is nobody's until it is committed,
and it makes no difference: every change of a writer starts by dropping the tail, so that two buffers that differ in
nothing else are the same afterwards; and whatever changes nothing gives the same answer for both.

## Contents
- **Tails.** `TailApart`: all but the elements of the tail is the same. What drops the tail makes the buffers the same
  (`TailApart.trimmed`, and with it every change of a writer); `filled_apart` for rooms filled differently.
- **Together.** `Together`: an action that answers the same, and leaves both buffers as they are or the same.
- **Actions.** `Fruitless` for reading where nothing can be read, one lemma per action of a writer, and
  `TailApart.together` for all operations that neither grant room nor commit.
-/

namespace MemStream

open StateAction

variable {σ α : Type}

namespace Operation

/-- Whether an operation keeps to the valid elements of its buffer. To copy the store (`dataCopy`) does not, and the
    ticket of a `release` may be that of another buffer. -/
def discreet : Operation σ α → Bool
  | .dataCopy | .release _ _ => false
  | _ => true

/-- Whether an operation asks for room or commits some. -/
def concernsRoom : Operation σ α → Bool
  | .reserve _ _ | .commit _ | .reserveWith _ _ _ => true
  | _ => false

end Operation

namespace Buffer

variable [Store σ α] {b c : Buffer σ} {n : Nat}

/-! ## Tails -/

/-- The same but for the elements behind the `valid` ones. -/
structure TailApart (b c : Buffer σ) : Prop where
  cursor : c.cursor = b.cursor
  access : c.access = b.access
  changes : c.changes = b.changes
  reservation : c.reservation = b.reservation
  label : c.label = b.label
  capacity : c.capacity = b.capacity
  content : c.content = b.content

theorem TailApart.refl (b : Buffer σ) : TailApart b b :=
  ⟨rfl, rfl, rfl, rfl, rfl, rfl, rfl⟩

namespace TailApart

variable (h : TailApart b c)

include h

theorem head : c.head = b.head := congrArg Cursor.head h.cursor
theorem valid : c.valid = b.valid := congrArg Cursor.valid h.cursor
theorem mode : c.mode = b.mode := congrArg Access.mode h.access
theorem canRead : c.canRead = b.canRead := congrArg Access.readOpen h.access
theorem canWrite : c.canWrite = b.canWrite := congrArg Access.writeOpen h.access
theorem epoch : c.epoch = b.epoch := congrArg UInt64.ofNat h.changes

/-- Buffers that are `TailApart` are `Ordered` together. -/
theorem ordered (hb : b.Ordered) : c.Ordered where
  head_le := by rw [h.head, h.valid]; exact hb.head_le
  valid_le := by rw [h.valid, h.capacity]; exact hb.valid_le
  capacity_lt := by rw [h.capacity]; exact hb.capacity_lt

/-- A reservation is no part of the store, so to drop it keeps buffers `TailApart`. -/
theorem unreserved : TailApart b.unreserved c.unreserved :=
  ⟨h.cursor, h.access, h.changes, rfl, h.label, h.capacity, h.content⟩

/-- With the same `data`, buffers that are `TailApart` are the same. -/
theorem eq_of_data (hdata : c.data = b.data) : c = b := by
  obtain ⟨data, cursor, access, changes, reservation, label⟩ := b
  obtain ⟨data', cursor', access', changes', reservation', label'⟩ := c
  obtain ⟨rfl, rfl, rfl, rfl, rfl, -, -⟩ := h
  cases hdata
  rfl

variable [LawfulStore σ]

/-- **To be `trimmed` makes them the same.** -/
theorem trimmed : c.trimmed = b.trimmed := by
  have hcut : TailApart b.trimmed c.trimmed := by
    refine ⟨?_, ?_, ?_, ?_, ?_, ?_, ?_⟩
    · rw [cursor_trimmed, cursor_trimmed, h.cursor]
    · rw [access_trimmed, access_trimmed, h.access]
    · rw [changes_trimmed, changes_trimmed, h.valid, h.capacity, h.changes]
    · rw [reservation_trimmed, reservation_trimmed, h.reservation]
    · rw [label_trimmed, label_trimmed, h.label]
    · rw [capacity_trimmed, capacity_trimmed, h.valid, h.capacity]
    · rw [content_trimmed, content_trimmed, h.content]
  apply hcut.eq_of_data
  apply Store.ext_toList
  rw [toList_trimmed, toList_trimmed, h.content]

/-- To be `extended` starts from `trimmed`, so it makes them the same. -/
theorem extended (p : Nat) : c.extended p = b.extended p := by
  unfold Buffer.extended
  rw [h.trimmed]

theorem written (elements : σ) : c.written elements = b.written elements := by
  unfold Buffer.written
  rw [h.head, h.extended]

theorem abandoned : c.abandoned = b.abandoned :=
  h.unreserved.trimmed

theorem closed {direction : Directions} (hc : b.access.closes direction = true) :
    c.closed direction = b.closed direction := by
  have hc' : c.access.closes direction = true := by rw [h.access, hc]
  rw [closed_of_closes hc, closed_of_closes hc']
  apply TailApart.trimmed
  exact ⟨h.cursor, congrArg (·.close direction) h.access, congrArg (· + 1) h.changes, rfl, h.label, h.capacity,
    h.content⟩

/-- What is handed out by `takeData` has no tail. -/
theorem handedOut : (c.closed .both).trimmed = (b.closed .both).trimmed := by
  cases hc : b.access.closes .both with
  | true => rw [h.closed hc]
  | false =>
      have hc' : c.access.closes .both = false := by rw [h.access, hc]
      rw [closed_eq_self hc, closed_eq_self hc', h.trimmed]

theorem emptied : c.emptied = b.emptied := by
  unfold Buffer.emptied
  rw [h.handedOut]

theorem grants (n : Nat) : c.grants n = b.grants n := by
  unfold Buffer.grants
  rw [h.canWrite, h.head, h.trimmed]

theorem room (n : Nat) : c.room n = b.room n := by
  unfold Buffer.room
  rw [h.head, h.extended]

/-- Whatever room is `filled` with, the tail from before is not in it. -/
theorem filled (n : Nat) (filling : σ) : c.filled n filling = b.filled n filling := by
  unfold Buffer.filled Buffer.reserved
  rw [h.head, h.room, h.extended, h.trimmed]

omit [LawfulStore σ] in
/-- To be `moved` leaves buffers `TailApart`, if the tails agree up to where the head goes. -/
theorem moved {p : Nat} (hkept : (Store.toList c.data).take p = (Store.toList b.data).take p) :
    TailApart (b.moved p) (c.moved p) where
  cursor := by
    show c.cursor.advance p c.canWrite = b.cursor.advance p b.canWrite
    rw [h.cursor, h.canWrite]
  access := h.access
  changes := congrArg (· + 1) h.changes
  reservation := h.reservation
  label := h.label
  capacity := h.capacity
  content := by
    have hcontent : (Store.toList c.data).take c.valid = (Store.toList b.data).take b.valid := h.content
    rw [h.valid] at hcontent
    unfold Buffer.content
    rw [valid_moved, valid_moved, h.canWrite, h.valid, data_moved, data_moved]
    split
    · -- the valid elements end where they did, or where the head is now
      rcases Nat.le_total b.valid p with hle | hle
      · rw [Nat.max_eq_right hle, hkept]
      · rw [Nat.max_eq_left hle, hcontent]
    · exact hcontent

/-- To be `committed` leaves the same where the tails agree as far as it goes. -/
theorem committed {count : Nat}
    (hkept : (Store.toList c.data).take (b.head + count) = (Store.toList b.data).take (b.head + count)) :
    c.committed count = b.committed count := by
  unfold Buffer.committed
  rw [h.head]
  exact (h.unreserved.moved hkept).trimmed

end TailApart

variable [LawfulStore σ]

/-- Of rooms `filled` differently, the stores agree as far as the fillings do. -/
theorem take_toList_filled (h : b.Ordered) {filling filling' : σ} {m : Nat}
    (hagree : (Store.toList (Store.overlayFront (b.room n) filling')).take (m - b.head) =
      (Store.toList (Store.overlayFront (b.room n) filling)).take (m - b.head)) :
    (Store.toList (b.filled n filling').data).take m = (Store.toList (b.filled n filling).data).take m := by
  have hfit : b.head ≤ (Store.toList (b.reserved n).data).length := by
    rw [Store.length_toList]
    exact Nat.le_trans (Nat.le_add_right _ n) (head_add_le_capacity_extended h (Nat.le_refl _))
  show (Store.toList (Store.overlay (b.reserved n).data b.head _)).take m =
    (Store.toList (Store.overlay (b.reserved n).data b.head _)).take m
  -- what lies before the head and behind the room is the same in both
  simp only [Store.toList_overlay, size_overlayFront_room h, List.append_assoc, List.take_append,
    List.length_take_of_le hfit, Store.length_toList, hagree]

/-- Rooms `filled` differently behind the valid elements only leave buffers `TailApart`. -/
theorem filled_apart (h : b.Ordered) {filling filling' : σ}
    (hagree : (Store.toList (Store.overlayFront (b.room n) filling')).take (b.valid - b.head) =
      (Store.toList (Store.overlayFront (b.room n) filling)).take (b.valid - b.head)) :
    TailApart (b.filled n filling) (b.filled n filling') := by
  refine ⟨rfl, rfl, rfl, rfl, rfl, ?_, ?_⟩
  · rw [capacity_filled h, capacity_filled h]
  · unfold Buffer.content
    rw [valid_filled, valid_filled]
    exact take_toList_filled h hagree

/-! ## Together -/

omit [LawfulStore σ] in
/-- The action `x` gives the same on both buffers, and leaves both as they are or makes them the same. -/
def Together {β : Type} (x : BufferAction σ β) (b c : Buffer σ) : Prop :=
  ∃ first second, x.run b = .ok first ∧ x.run c = .ok second ∧ second.value = first.value ∧
    (first.state = b ∧ second.state = c ∨ second.state = first.state)

omit [LawfulStore σ] in
/-- What is done `Together` is answered alike. -/
theorem Together.answer {β γ : Type} {x : BufferAction σ β} (h : Together x b c) (f : β → γ) :
    Together (x >>= fun value => pure (f value)) b c := by
  obtain ⟨first, second, hfirst, hsecond, hvalue, hstate⟩ := h
  exact ⟨_, _, run_answer hfirst f, run_answer hsecond f, congrArg f hvalue, hstate⟩

/-! ## Reading where nothing can be read -/

omit [LawfulStore σ] in
/-- The action `x` gives the same on all buffers of a `mode` that cannot be read, and leaves them as they are. -/
def Fruitless {β : Type} (mode : Directions) (x : BufferAction σ β) : Prop :=
  ∃ value, ∀ b : Buffer σ, b.Ordered → b.canRead = false → b.mode = mode →
    ∃ events, x.run b = .ok ⟨value, b, events⟩

omit [LawfulStore σ] in
theorem Fruitless.answer {β γ : Type} {mode : Directions} {x : BufferAction σ β} (h : Fruitless mode x) (f : β → γ) :
    Fruitless mode (x >>= fun value => pure (f value)) := by
  obtain ⟨value, hvalue⟩ := h
  refine ⟨f value, fun b hb hr hmode => ?_⟩
  obtain ⟨events, hrun⟩ := hvalue b hb hr hmode
  exact ⟨events, run_answer hrun f⟩

omit [LawfulStore σ] in
/-- What is `Fruitless` is done `Together`. -/
theorem Fruitless.together {β : Type} {x : BufferAction σ β} (hx : Fruitless b.mode x) (h : TailApart b c)
    (hb : b.Ordered) (hr : b.canRead = false) : Together x b c := by
  obtain ⟨value, hvalue⟩ := hx
  obtain ⟨events, hrun⟩ := hvalue b hb hr rfl
  obtain ⟨events', hrun'⟩ := hvalue c (h.ordered hb) (h.canRead.trans hr) h.mode
  exact ⟨_, _, hrun, hrun', rfl, .inl ⟨rfl, rfl⟩⟩

/-- Of a buffer that cannot be read, `read` gives `Store.empty`. -/
theorem read_fruitless (mode : Directions) (count : Nat) (advance : Bool) :
    Fruitless mode (read (σ := σ) count advance) := by
  refine ⟨Store.empty, fun b hb hr _ => ⟨[], ?_⟩⟩
  rw [run_read hb, upcoming_of_not_canRead hr, consumed_of_not_canRead hr, ite_self]

theorem stepBack_fruitless (mode : Directions) : Fruitless mode (stepBack (σ := σ)) := by
  refine ⟨none, fun b hb hr _ => ?_⟩
  rw [run_stepBack hb, hr]
  split
  · exact ⟨_, rfl⟩
  · exact ⟨_, rfl⟩

theorem readOne_fruitless (mode : Directions) (advance : Bool) : Fruitless mode (readOne (σ := σ) advance) :=
  (read_fruitless mode 1 advance).answer Store.head?

theorem skipOne_fruitless (mode : Directions) : Fruitless mode (skipOne (σ := σ)) := by
  refine ⟨Store.head? (Store.empty : σ), fun b hb hr _ => ⟨[], ?_⟩⟩
  rw [run_skipOne hb, consumed_of_not_canRead hr, upcoming_of_not_canRead hr]

omit [LawfulStore σ] in
theorem acquire_fruitless (mode : Directions) : Fruitless mode (acquire (σ := σ)) := by
  refine ⟨if mode.reads then .endOfStream else .refused, fun b hb hr hmode => ⟨[], ?_⟩⟩
  rw [run_acquire hb, offer_of_not_canRead hr, hmode]

omit [LawfulStore σ] in
theorem borrow_fruitless (mode : Directions) (settle : Option Nat) : Fruitless mode (borrow (σ := σ) settle) := by
  refine ⟨if mode.reads then .endOfStream else .refused, fun b hb hr hmode => ⟨[], ?_⟩⟩
  rw [run_borrow hb, offer_of_not_canRead hr, hmode]
  cases mode.reads <;> rfl

theorem gatherAll_fruitless (mode : Directions) (request : Nat → Nat) :
    Fruitless mode (gatherAll (σ := σ) request) :=
  ⟨Store.empty, fun _ hb hr _ => ⟨[], run_gatherAll_of_not_canRead hb hr request⟩⟩

theorem readExact_fruitless (mode : Directions) (count : Nat) : Fruitless mode (readExact (σ := σ) count) := by
  refine ⟨if Store.size (Store.empty : σ) = count then .ok Store.empty else .error .unexpectedEnd, ?_⟩
  intro b hb hr _
  refine ⟨[], ?_⟩
  unfold readExact
  rw [run_bind_of_silent (run_gatherAll_of_not_canRead hb hr _), run_ite]
  split
  · rfl
  · rfl

theorem readText_fruitless (mode : Directions) (codec : Text.Codec σ) :
    Fruitless mode (readText (σ := σ) codec) := by
  cases hcodec : codec.decode (Store.empty : σ) with
  | ok text =>
      refine ⟨.ok (Store.size (Store.empty : σ), text), fun b hb hr _ => ⟨[], ?_⟩⟩
      unfold readText
      rw [run_bind_of_silent (run_gatherAll_of_not_canRead hb hr _), hcodec]
      rfl
  | error flaw =>
      refine ⟨.error .notText, fun b hb hr _ => ⟨[], ?_⟩⟩
      unfold readText
      rw [run_bind_of_silent (run_gatherAll_of_not_canRead hb hr _), hcodec]
      rfl

/-- **Whoever cannot read learns nothing by trying.** What `browses` is `Fruitless`: the answer depends on the mode
    alone. -/
theorem browse_fruitless (mode : Directions) {operation : Operation σ α} (hbrowses : operation.browses = true)
    (hcopy : operation ≠ .dataCopy) : Fruitless mode operation.perform := by
  cases operation with
  | read count advance => exact (read_fruitless mode count advance).answer _
  | peek count => exact Fruitless.answer ⟨Store.empty, fun b hb hr _ =>
      ⟨[], by rw [run_peek hb, upcoming_of_not_canRead hr]⟩⟩ _
  | readOne advance => exact (readOne_fruitless mode advance).answer _
  | skipOne => exact (skipOne_fruitless mode).answer _
  | stepBack => exact (stepBack_fruitless mode).answer _
  | acquire => exact (acquire_fruitless mode).answer _
  | borrow settle => exact (borrow_fruitless mode settle).answer _
  | readToEnd => exact (gatherAll_fruitless mode _).answer _
  | readExact count => exact (readExact_fruitless mode count).answer _
  | readText codec => exact (readText_fruitless mode codec).answer _
  | sync => exact ⟨.flag true, fun _ _ _ _ => ⟨[], rfl⟩⟩
  | stagingSize direction => exact ⟨.count 0, fun _ _ _ _ => ⟨[], rfl⟩⟩
  | hintStaging size direction => exact ⟨.done, fun _ _ _ _ => ⟨_, rfl⟩⟩
  | dataCopy => exact absurd rfl hcopy
  | _ => cases hbrowses

/-! ## Writing where the tails differ -/

namespace TailApart

variable (h : TailApart b c) (hb : b.Ordered)

include h hb

/-- A `write` goes by the store without its tail, so it is done `Together`. -/
theorem write (elements : σ) : Together (write elements) b c := by
  unfold Together
  rw [run_write hb, run_write (h.ordered hb), h.trimmed, h.head, h.canWrite, h.written]
  split
  · split
    · split
      · exact ⟨_, _, rfl, rfl, rfl, .inr rfl⟩
      · exact ⟨_, _, rfl, rfl, rfl, .inr rfl⟩
    · exact ⟨_, _, rfl, rfl, rfl, .inl ⟨rfl, rfl⟩⟩
  · exact ⟨_, _, rfl, rfl, rfl, .inl ⟨rfl, rfl⟩⟩

theorem writeAll (elements : σ) : Together (writeAll elements) b c := by
  obtain ⟨first, second, hfirst, hsecond, hvalue, hstate⟩ := h.write hb elements
  unfold Together
  rw [run_writeAll hb, run_writeAll (h.ordered hb), hfirst, hsecond]
  split
  · exact ⟨_, _, rfl, rfl, rfl, .inl ⟨rfl, rfl⟩⟩
  · refine ⟨_, _, rfl, rfl, ?_, hstate⟩
    show (if second.value = 0 then _ else _) = _
    rw [hvalue]

theorem seekTo (hr : b.canRead = false) {p : Nat} (hp : p < positionLimit) (direction : Directions) :
    Together (seekTo p direction) b c := by
  unfold Together
  rw [run_seekTo hb hp, run_seekTo (h.ordered hb) hp, h.trimmed, h.canRead, h.valid, h.canWrite, h.extended, hr]
  split
  · next hread => cases hread.2.1
  split
  · split
    · exact ⟨_, _, rfl, rfl, rfl, .inr rfl⟩
    · exact ⟨_, _, rfl, rfl, rfl, .inr rfl⟩
  · exact ⟨_, _, rfl, rfl, rfl, .inl ⟨rfl, rfl⟩⟩

theorem seek (hr : b.canRead = false) (target : Target) (direction : Directions) :
    Together (seek target direction) b c := by
  have hseek := fun p hp => h.seekTo hb hr (p := p) hp direction
  unfold Together at hseek ⊢
  rw [run_seek, run_seek, h.cursor]
  cases ht : target.position? b.cursor with
  | none => exact ⟨_, _, rfl, rfl, rfl, .inl ⟨rfl, rfl⟩⟩
  | some p => exact hseek p (Target.position?_eq_some_iff.mp ht).2

theorem seekAny (hr : b.canRead = false) (target : Target) : Together (seekAny target) b c := by
  obtain ⟨first, second, hfirst, hsecond, hvalue, hstate⟩ := h.seek hb hr target .writing
  unfold Together Buffer.seekAny
  rw [run_look_bind, run_look_bind, h.canRead, hr, if_neg Bool.false_ne_true, run_bind_of_ok hfirst,
    run_bind_of_ok hsecond, hvalue]
  cases first.value with
  | none => exact ⟨_, _, rfl, rfl, rfl, hstate⟩
  | some position => exact ⟨_, _, rfl, rfl, rfl, hstate⟩

omit hb in
theorem abandon : Together (σ := σ) abandon b c := by
  refine ⟨_, _, run_abandon b, run_abandon c, ?_, .inr h.abandoned⟩
  show c.reservation.isSome = b.reservation.isSome
  rw [h.reservation]

omit hb in
theorem close (direction : Directions) : Together (close (σ := σ) direction) b c := by
  refine ⟨_, _, run_close b direction, run_close c direction, ?_, ?_⟩
  · show c.access.closes direction = b.access.closes direction
    rw [h.access]
  · cases hc : b.access.closes direction with
    | true => exact .inr (h.closed hc)
    | false =>
        have hc' : c.access.closes direction = false := by rw [h.access, hc]
        exact .inl ⟨closed_eq_self hc, closed_eq_self hc'⟩

omit hb in
theorem takeData : Together (σ := σ) takeData b c :=
  ⟨_, _, run_takeData b, run_takeData c, congrArg Buffer.data h.handedOut, .inr h.emptied⟩

end TailApart

/-! ## Operations -/

/-- **Operations that have nothing to do with rooms are done `Together`.** -/
theorem TailApart.together (h : TailApart b c) (hb : b.Ordered) (hr : b.canRead = false) {operation : Operation σ α}
    (hfits : operation.Fits) (hdiscreet : operation.discreet = true) (hroom : operation.concernsRoom = false) :
    Together operation.perform b c := by
  by_cases hbrowses : operation.browses = true
  · have hcopy : operation ≠ .dataCopy := by
      rintro rfl
      cases hdiscreet
    exact (browse_fruitless b.mode hbrowses hcopy).together h hb hr
  cases operation with
  | write elements => exact (h.write hb elements).answer _
  | writeOne element => exact ((h.write hb (Store.single element)).answer _).answer _
  | writeAll elements => exact (h.writeAll hb elements).answer _
  | seekTo position direction => exact (h.seekTo hb hr hfits direction).answer _
  | seek target direction => exact (h.seek hb hr target direction).answer _
  | seekAny target => exact (h.seekAny hb hr target).answer _
  | abandon => exact h.abandon.answer _
  | close direction => exact (h.close direction).answer _
  | takeData => exact h.takeData.answer _
  | reserve | commit | reserveWith => cases hroom
  | release => cases hdiscreet
  | _ => exact absurd rfl hbrowses

end Buffer

end MemStream
