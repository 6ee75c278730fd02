import MemStream.Buffer.Storage

/-!
# `MemStream.Proofs.Effect` — what the storage actions leave behind

Every operation is made of the storage actions, so their effects are named here once, as functions on buffers. What an
operation leaves is then a composition of these functions, and the facts below say what such a composition looks like
without running it again.

## Contents
- **Order.** `Buffer.Ordered`: head, valid elements and capacity come in order.
- **Elements.** `Buffer.content` and the tail behind it.
- **Effects.** `Buffer.trimmed`, `Buffer.grown`, `Buffer.placed`, `Buffer.moved`, and `Buffer.extended`, which is how
  every writer makes room: first the tail goes, then the store grows.
- **Runs.** The storage actions have exactly these effects (`run_dropTail_trimmed`, `run_growTo_grown`, …).
-/

namespace MemStream.Buffer

open StateAction

variable {σ α : Type} [Store σ α]

/-! ## Order and elements -/

/-- The `head`, the `valid` elements and the `capacity` come in this order, and the `capacity` is a position. -/
structure Ordered (b : Buffer σ) : Prop where
  head_le : b.head ≤ b.valid
  valid_le : b.valid ≤ b.capacity
  capacity_lt : b.capacity < positionLimit

theorem Ordered.head_add_available {b : Buffer σ} (h : b.Ordered) : b.head + b.available = b.valid := by
  have := h.head_le
  unfold available Cursor.available head valid at *
  omega

/-- The valid elements: the first `valid` ones of the store. -/
def content (b : Buffer σ) : List α :=
  (Store.toList b.data).take b.valid

/-- The `content` of an `Ordered` buffer has `valid` elements. -/
theorem length_content [LawfulStore σ] {b : Buffer σ} (h : b.Ordered) : b.content.length = b.valid := by
  have hvalid := h.valid_le
  unfold capacity at hvalid
  unfold content
  rw [List.length_take, Store.length_toList]
  exact Nat.min_eq_left hvalid

/-- Without a tail, the `content` is the whole store. -/
theorem content_eq_toList [LawfulStore σ] {b : Buffer σ} (h : b.capacity ≤ b.valid) :
    b.content = Store.toList b.data := by
  unfold content
  unfold capacity at h
  exact List.take_of_length_le (by rw [Store.length_toList]; exact h)

/-! ## Effects -/

/-- The head moved to `p`, as `moveHead` leaves it; with the writing side open, `valid` reaches at least up to it. -/
def moved (b : Buffer σ) (p : Nat) : Buffer σ :=
  { b with cursor := b.cursor.advance p b.canWrite, changes := b.changes + 1 }

/-- The store cut off after the `valid` elements, as `dropTail` leaves it. -/
def trimmed (b : Buffer σ) : Buffer σ :=
  if b.valid < b.capacity then
    { b with data := Store.resize b.data b.valid, changes := b.changes + 1 }
  else b

/-- Whether there is room up to `p`, or the store is ready to make it (`Store.accepts`). -/
def admits (b : Buffer σ) (p : Nat) : Bool :=
  decide (p ≤ b.valid) || decide (p = b.capacity) || Store.accepts b.data p

/-- Room up to `p`, as `growTo` leaves it. -/
def grown (b : Buffer σ) (p : Nat) : Buffer σ :=
  if p ≤ b.valid ∨ p = b.capacity then b else { b with data := Store.resize b.data p }

/-- The `elements` put in place of what the store had from `start` on, as `place` leaves it. -/
def placed (b : Buffer σ) (start : Nat) (elements : σ) : Buffer σ :=
  { b with data := Store.overlay b.data start elements }

/-- Room up to `p` with no tail left from before: `trimmed` and then `grown`. -/
def extended (b : Buffer σ) (p : Nat) : Buffer σ :=
  b.trimmed.grown p

/-- The report of a dropped tail, `Notice.tailDropped`. -/
def trimEvents (b : Buffer σ) : List Event :=
  if b.valid < b.capacity then [⟨b.label, .tailDropped b.capacity b.valid⟩] else []

/-- The reports of making room up to `p`, or of failing to. -/
def growEvents (b : Buffer σ) (p : Nat) : List Event :=
  if p ≤ b.valid ∨ p = b.capacity then []
  else if Store.accepts b.data p then [⟨b.label, .storeResizing b.capacity p⟩]
  else [⟨b.label, .storeResizing b.capacity p⟩, ⟨b.label, .growthRefused b.capacity p⟩]

/-! ## Fields after a move -/

section Moved

variable (b : Buffer σ) (p : Nat)

@[simp] theorem head_moved : (b.moved p).head = p := rfl
@[simp] theorem data_moved : (b.moved p).data = b.data := rfl
@[simp] theorem capacity_moved : (b.moved p).capacity = b.capacity := rfl
@[simp] theorem canRead_moved : (b.moved p).canRead = b.canRead := rfl
@[simp] theorem changes_moved : (b.moved p).changes = b.changes + 1 := rfl
@[simp] theorem reservation_moved : (b.moved p).reservation = b.reservation := rfl

/-- Only a writer raises `valid` by moving. -/
theorem valid_moved : (b.moved p).valid = if b.canWrite then max b.valid p else b.valid := by
  unfold valid moved
  cases b.canWrite <;> simp

/-- Inside the `valid` elements, a move leaves their number as it is. -/
theorem moved_eq_of_le {b : Buffer σ} {p : Nat} (hp : p ≤ b.valid) :
    b.moved p = { b with cursor := ⟨p, b.valid⟩, changes := b.changes + 1 } := by
  have hnot : ¬ b.cursor.valid < p := Nat.not_lt.mpr hp
  unfold moved Cursor.advance
  simp [hnot, valid]

end Moved

/-! ## Fields after the tail is dropped -/

section Trimmed

variable (b : Buffer σ)

@[simp] theorem cursor_trimmed : b.trimmed.cursor = b.cursor := by unfold trimmed; split <;> rfl
@[simp] theorem head_trimmed : b.trimmed.head = b.head := by unfold trimmed; split <;> rfl
@[simp] theorem valid_trimmed : b.trimmed.valid = b.valid := by unfold trimmed; split <;> rfl
@[simp] theorem access_trimmed : b.trimmed.access = b.access := by unfold trimmed; split <;> rfl
@[simp] theorem canRead_trimmed : b.trimmed.canRead = b.canRead := by unfold trimmed; split <;> rfl
@[simp] theorem canWrite_trimmed : b.trimmed.canWrite = b.canWrite := by unfold trimmed; split <;> rfl
@[simp] theorem reservation_trimmed : b.trimmed.reservation = b.reservation := by unfold trimmed; split <;> rfl
@[simp] theorem label_trimmed : b.trimmed.label = b.label := by unfold trimmed; split <;> rfl

/-- The epoch moves on with `trimmed` exactly where there was a tail. -/
theorem changes_trimmed :
    b.trimmed.changes = if b.valid < b.capacity then b.changes + 1 else b.changes := by
  unfold trimmed
  split <;> rfl

/-- Without a tail there is nothing to be `trimmed`. -/
theorem trimmed_eq_self (h : b.capacity ≤ b.valid) : b.trimmed = b :=
  if_neg (Nat.not_lt.mpr h)

variable [LawfulStore σ]

/-- Once `trimmed`, the store reaches no further than `valid`. -/
theorem capacity_trimmed : b.trimmed.capacity = min b.valid b.capacity := by
  unfold trimmed
  split
  · next h => simp only [capacity, Store.size_resize] at h ⊢; omega
  · next h => omega

/-- What is left in a store that is `trimmed` is the `content`. -/
theorem toList_trimmed : Store.toList b.trimmed.data = b.content := by
  unfold trimmed content
  split
  · next h =>
      unfold capacity at h
      simp [Nat.sub_eq_zero_of_le (Nat.le_of_lt h)]
  · next h =>
      unfold capacity at h
      rw [List.take_of_length_le (by simpa using h)]

variable {b} in
theorem capacity_trimmed_eq_valid (h : b.Ordered) : b.trimmed.capacity = b.valid := by
  rw [capacity_trimmed]
  exact Nat.min_eq_left h.valid_le

variable {b} in
/-- The store stays long enough for the `head` when it is `trimmed`. -/
theorem head_le_size_trimmed (h : b.Ordered) : b.head ≤ Store.size b.trimmed.data := by
  rw [show Store.size b.trimmed.data = b.valid from capacity_trimmed_eq_valid h]
  exact h.head_le

variable {b} in
/-- The store is resized to `valid`, where there is anything behind it. -/
theorem data_trimmed (h : b.Ordered) : b.trimmed.data = Store.resize b.data b.valid := by
  have hvalid := h.valid_le
  unfold capacity at hvalid
  apply Store.ext_toList
  rw [toList_trimmed, Store.toList_resize, Nat.sub_eq_zero_of_le hvalid]
  simp [content]

theorem content_trimmed : b.trimmed.content = b.content := by
  show (Store.toList b.trimmed.data).take b.trimmed.valid = b.content
  rw [toList_trimmed, valid_trimmed]
  unfold content
  rw [List.take_take, Nat.min_self]

end Trimmed

/-! ## Fields after room is made -/

section Extended

variable (b : Buffer σ) (p : Nat)

@[simp] theorem cursor_grown : (b.grown p).cursor = b.cursor := by unfold grown; split <;> rfl
@[simp] theorem access_grown : (b.grown p).access = b.access := by unfold grown; split <;> rfl
@[simp] theorem changes_grown : (b.grown p).changes = b.changes := by unfold grown; split <;> rfl
@[simp] theorem reservation_grown : (b.grown p).reservation = b.reservation := by unfold grown; split <;> rfl

/-- A buffer that is `trimmed` and then `grown` is `extended`. -/
theorem grown_trimmed : b.trimmed.grown p = b.extended p := rfl

@[simp] theorem cursor_extended : (b.extended p).cursor = b.cursor := by simp [extended]
@[simp] theorem head_extended : (b.extended p).head = b.head := congrArg Cursor.head (cursor_extended b p)
@[simp] theorem valid_extended : (b.extended p).valid = b.valid := congrArg Cursor.valid (cursor_extended b p)
@[simp] theorem access_extended : (b.extended p).access = b.access := by simp [extended]
@[simp] theorem canRead_extended : (b.extended p).canRead = b.canRead :=
  congrArg Access.readOpen (access_extended b p)
@[simp] theorem canWrite_extended : (b.extended p).canWrite = b.canWrite :=
  congrArg Access.writeOpen (access_extended b p)
@[simp] theorem changes_extended : (b.extended p).changes = b.trimmed.changes := by simp [extended]
@[simp] theorem reservation_extended : (b.extended p).reservation = b.reservation := by simp [extended]

variable [LawfulStore σ]

variable {b}

/-- Once `extended`, the store ends at `p`, unless the `valid` elements reach further. -/
theorem capacity_extended (h : b.Ordered) : (b.extended p).capacity = max b.valid p := by
  have hcap := capacity_trimmed_eq_valid h
  unfold extended grown
  rw [valid_trimmed, hcap]
  split
  · rw [hcap]; omega
  · show Store.size (Store.resize b.trimmed.data p) = _
    rw [Store.size_resize]; omega

/-- Behind the `content` of a store that is `extended` there is nothing but blanks. -/
theorem toList_extended (h : b.Ordered) :
    Store.toList (b.extended p).data = b.content ++ List.replicate (p - b.valid) (Store.blank σ) := by
  have hcap := capacity_trimmed_eq_valid h
  unfold extended grown
  rw [valid_trimmed, hcap]
  split
  · have hp : p - b.valid = 0 := by omega
    rw [hp, toList_trimmed]
    simp
  · show Store.toList (Store.resize b.trimmed.data p) = _
    have hsize : Store.size b.trimmed.data = b.valid := hcap
    rw [Store.toList_resize, hsize, toList_trimmed, List.take_of_length_le]
    rw [length_content h]
    omega

/-- Room is made by padding the store that was `trimmed`. -/
theorem data_extended (h : b.Ordered) :
    (b.extended p).data = Store.resize b.trimmed.data (max (Store.size b.trimmed.data) p) := by
  have hsize : Store.size b.trimmed.data = b.valid := capacity_trimmed_eq_valid h
  apply Store.ext_toList
  rw [toList_extended p h, Store.toList_resize_max, toList_trimmed, hsize]

/-- Once `trimmed`, a buffer `admits` what lies inside the valid elements or what the store accepts. -/
theorem admits_trimmed (h : b.Ordered) :
    b.trimmed.admits p = (decide (p ≤ b.valid) || Store.accepts b.trimmed.data p) := by
  unfold admits
  rw [valid_trimmed, capacity_trimmed, Nat.min_eq_left h.valid_le]
  by_cases hp : p ≤ b.valid
  · simp [hp]
  · have hne : p ≠ b.valid := by omega
    simp [hne]

end Extended

/-! ## Fields after elements are placed -/

section Placed

variable (b : Buffer σ) (start : Nat) (elements : σ)

@[simp] theorem valid_placed : (b.placed start elements).valid = b.valid := rfl
@[simp] theorem canRead_placed : (b.placed start elements).canRead = b.canRead := rfl
@[simp] theorem canWrite_placed : (b.placed start elements).canWrite = b.canWrite := rfl

/-- A piece that ends inside the store leaves `capacity` as it is. -/
theorem capacity_placed [LawfulStore σ] {b : Buffer σ} {start : Nat} {elements : σ}
    (h : start + Store.size elements ≤ b.capacity) : (b.placed start elements).capacity = b.capacity :=
  Store.size_overlay h

end Placed

/-! ## Order is kept -/

section Order

variable {b : Buffer σ}

/-- Only a writer can be `moved` behind the valid elements, and not behind the store. -/
theorem Ordered.moved (h : b.Ordered) {p : Nat} (hp : p ≤ if b.canWrite then b.capacity else b.valid) :
    (b.moved p).Ordered := by
  obtain ⟨hhead, hvalid, hcap⟩ := h
  refine ⟨?_, ?_, hcap⟩
  · rw [head_moved, valid_moved]
    split at hp
    · next hw => rw [if_pos hw]; omega
    · next hw => rw [if_neg hw]; exact hp
  · rw [capacity_moved, valid_moved]
    split at hp
    · next hw => rw [if_pos hw]; omega
    · next hw => rw [if_neg hw]; exact hvalid

variable [LawfulStore σ]

theorem Ordered.trimmed (h : b.Ordered) : b.trimmed.Ordered := by
  obtain ⟨hhead, hvalid, hcap⟩ := h
  refine ⟨?_, ?_, ?_⟩
  · rw [head_trimmed, valid_trimmed]; exact hhead
  · rw [valid_trimmed, capacity_trimmed]; omega
  · rw [capacity_trimmed]; omega

/-- Room up to a position keeps a buffer `Ordered`. -/
theorem Ordered.extended (h : b.Ordered) {p : Nat} (hp : p < positionLimit) : (b.extended p).Ordered := by
  obtain ⟨hhead, hvalid, hcap⟩ := h
  refine ⟨?_, ?_, ?_⟩
  · rw [head_extended, valid_extended]; exact hhead
  · rw [valid_extended, capacity_extended p ⟨hhead, hvalid, hcap⟩]; omega
  · rw [capacity_extended p ⟨hhead, hvalid, hcap⟩]; omega

theorem Ordered.placed (h : b.Ordered) {start : Nat} {elements : σ}
    (hstop : start + Store.size elements ≤ b.capacity) : (b.placed start elements).Ordered := by
  obtain ⟨hhead, hvalid, hcap⟩ := h
  refine ⟨hhead, ?_, ?_⟩
  · rw [capacity_placed hstop]; exact hvalid
  · rw [capacity_placed hstop]; exact hcap

end Order

/-! ## Runs of the storage actions -/

section Runs

variable {β : Type} {b : Buffer σ}

/-- To `dropTail` leaves the buffer `trimmed`. -/
theorem run_dropTail_trimmed (b : Buffer σ) : dropTail.run b = .ok ⟨(), b.trimmed, b.trimEvents⟩ := by
  rw [run_dropTail]
  unfold trimmed trimEvents
  split <;> rfl

theorem run_dropTail_bind (f : Unit → BufferAction σ β) (b : Buffer σ) :
    (dropTail >>= f).run b = ((f ()).run b.trimmed).map (·.after b.trimEvents) :=
  run_bind_of_run (run_dropTail_trimmed b)

/-- Where the buffer `admits` the position it is left `grown`, and otherwise as it is. -/
theorem run_growTo_grown (b : Buffer σ) (p : Nat) :
    (growTo p).run b = .ok ⟨b.admits p, if b.admits p then b.grown p else b, b.growEvents p⟩ := by
  rw [run_growTo]
  unfold admits grown growEvents
  by_cases hroom : p ≤ b.valid ∨ p = b.capacity
  · rcases hroom with h | h <;> simp [h]
  · have h1 : ¬ p ≤ b.valid := fun h => hroom (.inl h)
    have h2 : ¬ p = b.capacity := fun h => hroom (.inr h)
    cases hacc : Store.accepts b.data p <;> simp [h1, h2]

/-- After `growTo`, the run goes on with the answer whether the buffer `admits` the position. -/
theorem run_growTo_bind (f : Bool → BufferAction σ β) (b : Buffer σ) (p : Nat) :
    (growTo p >>= f).run b =
      ((f (b.admits p)).run (if b.admits p then b.grown p else b)).map (·.after (b.growEvents p)) :=
  run_bind_of_run (run_growTo_grown b p)

/-- Within bounds, `moveHead` passes its check and leaves the buffer `moved`. -/
theorem run_moveHead_moved (h : b.Ordered) {p : Nat} (hp : p ≤ if b.canWrite then b.capacity else b.valid) :
    (moveHead p).run b = .ok ⟨(), b.moved p, []⟩ :=
  run_moveHead h.valid_le hp

/-- A `moveHead` that goes well passed `Cursor.check`, and reports nothing. -/
theorem of_run_moveHead {p : Nat} {step : Step (Buffer σ) Event Unit} (hrun : (moveHead p).run b = .ok step) :
    step = ⟨(), b.moved p, []⟩ ∧ (b.moved p).valid ≤ b.capacity := by
  unfold moveHead at hrun
  rw [run_alter_bind, run_nextEpoch_bind, run_look_bind] at hrun
  cases hcheck : (b.moved p).cursor.check (b.moved p).capacity with
  | error fault =>
      have hfault : StateAction.run (StateAction.ensure (.error fault)) (b.moved p) = .ok step := hcheck ▸ hrun
      cases hfault
  | ok value =>
      have hok : StateAction.run (StateAction.ensure (.ok value)) (b.moved p) = .ok step := hcheck ▸ hrun
      cases hok
      exact ⟨rfl, (Cursor.check_eq_ok_iff.mp hcheck).2⟩

/-- So all that is reported after `moveHead` is reported by what follows it. -/
theorem run_moveHead_bind_eq_ok {check : Except Fault Nat} {f : Nat → BufferAction σ β}
    {step : Step (Buffer σ) Event β}
    (hrun : (ensure check >>= fun position => moveHead position >>= fun _ => f position).run b = .ok step) :
    ∃ position, (f position).run (b.moved position) = .ok step := by
  cases check with
  | error fault => cases hrun
  | ok position =>
      rw [run_ensure_ok_bind] at hrun
      obtain ⟨moved, done, hmoved, hdone, rfl⟩ := run_bind_eq_ok_iff.mp hrun
      obtain ⟨rfl, -⟩ := of_run_moveHead hmoved
      exact ⟨position, hdone⟩

/-- Elements that end inside the store are put there by `place`, which leaves it `placed`. -/
theorem run_place_placed (h : b.Ordered) {start : Nat} {elements : σ}
    (hstop : start + Store.size elements ≤ b.capacity) :
    (place start elements).run b = .ok ⟨(), b.placed start elements, []⟩ :=
  run_place hstop h.capacity_lt

end Runs

end MemStream.Buffer
