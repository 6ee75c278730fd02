import Mathlib.Logic.Relation
import MemStream.Operation
import MemStream.Proofs.Lending
import MemStream.Proofs.Reading
import MemStream.Proofs.Writing

/-!
# `MemStream.Proofs.Change` — the ways in which a buffer changes

However many operations there are, a buffer changes in few ways: its head passes elements by, its tail goes, elements
are written, room is reserved, committed or given up, sides close, elements are handed out. `Change` lists them, each
with the condition under which it comes about. What all changes keep, every run keeps.

## Contents
- **Closing sides.** `Access.Narrows`, a preorder on what is open.
- **Changes.** `Change`, `Changes`; no change lowers the count (`Change.changes_le`) or opens a side
  (`Change.narrows`).
- **What a buffer can rely on.** `Guarded`: order, coherent sides, and that a live lease or reservation still fits.
  Every change keeps it (`Change.guarded`).
-/

namespace MemStream

open StateAction

/-- The first number of `changes` that 64 bits do not hold. -/
def epochLimit : Nat := UInt64.size

/-! ## Closing sides -/

namespace Access

/-- Of the same `mode`, with no side open that was closed. -/
structure Narrows (a a' : Access) : Prop where
  mode : a'.mode = a.mode
  readOpen : a'.readOpen = true → a.readOpen = true
  writeOpen : a'.writeOpen = true → a.writeOpen = true

theorem Narrows.refl (a : Access) : a.Narrows a :=
  ⟨rfl, id, id⟩

theorem Narrows.of_eq {a a' : Access} (h : a' = a) : a.Narrows a' :=
  h ▸ .refl a

theorem Narrows.trans {a a' a'' : Access} (h : a.Narrows a') (h' : a'.Narrows a'') : a.Narrows a'' where
  mode := h'.mode.trans h.mode
  readOpen hr := h.readOpen (h'.readOpen hr)
  writeOpen hw := h.writeOpen (h'.writeOpen hw)

/-- To `close` sides only ever `Narrows` the access. -/
theorem Narrows.close (a : Access) (direction : Directions) : a.Narrows (a.close direction) where
  mode := rfl
  readOpen hr := (Bool.and_eq_true_iff.mp hr).1
  writeOpen hw := (Bool.and_eq_true_iff.mp hw).1

/-- An access that `Narrows` a coherent one is `Coherent`. -/
theorem Coherent.narrows {a a' : Access} (h : a.Coherent) (hn : a.Narrows a') : a'.Coherent where
  exclusive := by
    rw [hn.mode]
    exact h.exclusive
  reads_of_readOpen hr := by
    rw [hn.mode]
    exact h.reads_of_readOpen (hn.readOpen hr)
  writes_of_writeOpen hw := by
    rw [hn.mode]
    exact h.writes_of_writeOpen (hn.writeOpen hw)

end Access

namespace Buffer

variable {σ α : Type} [Store σ α]

/-! ## Changes -/

/-- One way in which a buffer changes. Every operation is a chain of these (`perform_changes`). -/
inductive Change (b : Buffer σ) : Buffer σ → Prop where
  /-- The head goes somewhere in the valid elements of a reader. -/
  | pass (p n : Nat) : b.canRead = true → p ≤ b.valid → 0 < n →
      Change b { b with cursor := ⟨p, b.valid⟩, changes := b.changes + n }
  /-- A writer was refused room. -/
  | trim : Change b b.trimmed
  | write (elements : σ) : b.canWrite = true → b.head + Store.size elements < positionLimit →
      Change b (b.written elements)
  | seek (p : Nat) : b.canWrite = true → p < positionLimit → Change b ((b.extended p).moved p)
  | reserve (n : Nat) (filling : σ) : b.canWrite = true → b.head + n < positionLimit → Change b (b.filled n filling)
  | commit (r : Reservation) (count : Nat) : b.reservation = some r → r.epoch = b.epoch → b.canWrite = true →
      b.head + r.length ≤ b.capacity → count ≤ r.length → Change b (b.committed count)
  | abandon : Change b b.abandoned
  | close (direction : Directions) : b.access.closes direction = true → Change b (b.closed direction)
  /-- A closed buffer hands out its elements. -/
  | empty : b.isOpen = false → Change b { b.trimmed with cursor := .zero, data := Store.empty }

/-- A chain of `Change`s. -/
abbrev Changes : Buffer σ → Buffer σ → Prop :=
  Relation.ReflTransGen Change

/-! ## What a buffer can rely on -/

/-- The reservation `r` is that of the buffer, and of the present epoch. -/
def Live (b : Buffer σ) (r : Reservation) : Prop :=
  b.reservation = some r ∧ r.epoch.toNat = b.changes

/-- A buffer is `Ordered` and its access `Coherent`, and what it granted and has not made stale still fits. The tickets
    it granted are `own`. -/
structure Guarded (own : Ticket → Prop) (b : Buffer σ) : Prop where
  ordered : b.Ordered
  coherent : b.access.Coherent
  /-- A buffer that was not opened for writing has neither reservation nor tail. -/
  unwritten : b.mode.writes = false → b.reservation = none ∧ b.capacity = b.valid
  issued : ∀ t, own t → t.epoch.toNat ≤ b.changes
  lease : ∀ t, own t → t.epoch.toNat = b.changes →
    b.canRead = true ∧ t.offset = b.head ∧ t.offset + t.length = b.valid
  reserved : ∀ r, b.reservation = some r → r.epoch.toNat ≤ b.changes
  live : ∀ r, b.Live r → b.canWrite = true ∧ b.head + r.length ≤ b.capacity

/-! ## Every change counts -/

theorem changes_le_trimmed (b : Buffer σ) : b.changes ≤ b.trimmed.changes := by
  rw [changes_trimmed]
  split <;> omega

/-- A `write` that goes through moves the epoch on. -/
theorem changes_lt_written (b : Buffer σ) (elements : σ) : b.changes < (b.written elements).changes := by
  show b.changes < (b.extended (b.head + Store.size elements)).changes + 1
  rw [changes_extended]
  exact Nat.lt_succ_of_le (changes_le_trimmed b)

/-- A seek of a writer that goes through moves the epoch on. -/
theorem changes_lt_sought (b : Buffer σ) (p : Nat) : b.changes < ((b.extended p).moved p).changes := by
  rw [changes_moved, changes_extended]
  exact Nat.lt_succ_of_le (changes_le_trimmed b)

/-- A `commit` that goes through moves the epoch on. -/
theorem changes_lt_committed (b : Buffer σ) (count : Nat) : b.changes < (b.committed count).changes :=
  Nat.lt_of_lt_of_le (Nat.lt_succ_self _) (changes_le_trimmed (b.unreserved.moved (b.head + count)))

/-- A close that `closes` anything moves the epoch on. -/
theorem changes_lt_closed {b : Buffer σ} {direction : Directions} (h : b.access.closes direction = true) :
    b.changes < (b.closed direction).changes := by
  rw [closed_of_closes h]
  exact Nat.lt_of_succ_le (changes_le_trimmed
    { b with access := b.access.close direction, changes := b.changes + 1, reservation := none })

/-- No `Change` takes the count of changes back. -/
theorem Change.changes_le {b b' : Buffer σ} (h : Change b b') : b.changes ≤ b'.changes := by
  cases h with
  | pass p n _ _ _ => exact Nat.le_add_right _ _
  | trim => exact changes_le_trimmed b
  | write elements _ _ => exact Nat.le_of_lt (changes_lt_written b elements)
  | seek p _ _ => exact Nat.le_of_lt (changes_lt_sought b p)
  | reserve n filling _ _ => exact Nat.le_succ_of_le (changes_le_trimmed b)
  | commit r count _ _ _ _ _ => exact Nat.le_of_lt (changes_lt_committed b count)
  | abandon => exact changes_le_trimmed b.unreserved
  | close direction h => exact Nat.le_of_lt (changes_lt_closed h)
  | empty _ => exact changes_le_trimmed b

/-- No chain of `Changes` takes the count of changes back. -/
theorem Changes.changes_le {b b' : Buffer σ} (h : Changes b b') : b.changes ≤ b'.changes := by
  induction h with
  | refl => exact Nat.le_refl _
  | tail _ hstep ih => exact Nat.le_trans ih hstep.changes_le

/-! ## No change opens a side -/

/-- No `Change` opens a side. -/
theorem Change.narrows {b b' : Buffer σ} (h : Change b b') : b.access.Narrows b'.access := by
  cases h with
  | pass p n _ _ _ => exact .refl _
  | trim => exact .of_eq (access_trimmed b)
  | write elements _ _ => exact .of_eq (access_extended b _)
  | seek p _ _ => exact .of_eq (access_extended b p)
  | reserve n filling _ _ => exact .of_eq (access_filled b n filling)
  | commit r count _ _ _ _ _ => exact .of_eq (access_trimmed (b.unreserved.moved (b.head + count)))
  | abandon => exact .of_eq (access_trimmed b.unreserved)
  | close direction hc =>
      rw [closed_of_closes hc, access_trimmed]
      exact .close b.access direction
  | empty _ => exact .of_eq (access_trimmed b)

theorem Changes.narrows {b b' : Buffer σ} (h : Changes b b') : b.access.Narrows b'.access := by
  induction h with
  | refl => exact .refl _
  | tail _ hstep ih => exact ih.trans hstep.narrows

/-! ## Every change keeps the guard -/

variable {own : Ticket → Prop} {b b' : Buffer σ}

/-- A `Guarded` buffer that can be written cannot be read. -/
theorem Guarded.not_canRead_of_canWrite (h : b.Guarded own) (hw : b.canWrite = true) : b.canRead = false := by
  cases hr : b.canRead with
  | false => rfl
  | true => exact absurd hw (by rw [canWrite, h.coherent.writeOpen_eq_false hr]; exact Bool.false_ne_true)

theorem Guarded.writes_of_canWrite (h : b.Guarded own) (hw : b.canWrite = true) : b.mode.writes = true :=
  h.coherent.writes_of_writeOpen hw

/-- To an open reader that is `Guarded` nothing is or can be written. -/
theorem Guarded.reader (h : b.Guarded own) (hr : b.canRead = true) :
    b.canWrite = false ∧ b.reservation = none ∧ b.capacity = b.valid := by
  have hreads := h.coherent.reads_of_readOpen hr
  have hwrites : b.mode.writes = false := by
    cases hw : b.mode.writes with
    | false => rfl
    | true => exact absurd ⟨hreads, hw⟩ h.coherent.exclusive
  exact ⟨h.coherent.writeOpen_eq_false hr, h.unwritten hwrites⟩

/-- The fewer tickets are `own`, the less a `Guarded` buffer has to keep. -/
theorem Guarded.of_subset {other : Ticket → Prop} (h : b.Guarded own) (hsub : ∀ t, other t → own t) :
    b.Guarded other where
  ordered := h.ordered
  coherent := h.coherent
  unwritten := h.unwritten
  issued t ht := h.issued t (hsub t ht)
  lease t ht := h.lease t (hsub t ht)
  reserved := h.reserved
  live := h.live

/-- Once the epoch has moved on, neither an old lease nor an old reservation is `Live`. -/
theorem Guarded.later (h : b.Guarded own) (hordered : b'.Ordered) (hcoherent : b'.access.Coherent)
    (hunwritten : b'.mode.writes = false → b'.reservation = none ∧ b'.capacity = b'.valid)
    (hchanges : b.changes < b'.changes) (hres : ∀ r, b'.reservation = some r → b.reservation = some r) :
    b'.Guarded own where
  ordered := hordered
  coherent := hcoherent
  unwritten := hunwritten
  issued t ht := Nat.le_trans (h.issued t ht) (Nat.le_of_lt hchanges)
  lease t ht hepoch := by
    have := h.issued t ht
    omega
  reserved r hr := Nat.le_trans (h.reserved r (hres r hr)) (Nat.le_of_lt hchanges)
  live r hr := by
    have hold := h.reserved r (hres r hr.1)
    have hepoch := hr.2
    omega

/-- The head moved within the `valid` elements of a reader, in any number of changes, keeps `Guarded`. -/
theorem Guarded.pass (h : b.Guarded own) {p n : Nat} (hp : p ≤ b.valid) (hn : 0 < n) :
    ({ b with cursor := ⟨p, b.valid⟩, changes := b.changes + n } : Buffer σ).Guarded own :=
  h.later ⟨hp, h.ordered.valid_le, h.ordered.capacity_lt⟩ h.coherent h.unwritten (Nat.lt_add_of_pos_right hn)
    fun _ hr => hr

/-- A writer that moved the head has made everything stale, so it is `Guarded` if it is `Ordered`. -/
theorem Guarded.of_writer (h : b.Guarded own) (hw : b.canWrite = true) (hordered : b'.Ordered)
    (haccess : b'.access = b.access) (hchanges : b.changes < b'.changes)
    (hres : ∀ r, b'.reservation = some r → b.reservation = some r) : b'.Guarded own := by
  refine h.later hordered ?_ ?_ hchanges hres
  · rw [haccess]
    exact h.coherent
  · intro hmode
    rw [mode, haccess] at hmode
    exact absurd (h.writes_of_canWrite hw) (by rw [mode, hmode]; exact Bool.false_ne_true)

/-- Wherever the head is `moved` in good order, the buffer stays `Guarded`. -/
theorem Guarded.moved (h : b.Guarded own) {p : Nat} (hp : p ≤ if b.canWrite then b.capacity else b.valid) :
    (b.moved p).Guarded own := by
  refine h.later (h.ordered.moved hp) h.coherent ?_ (Nat.lt_succ_self _) fun _ hr => hr
  intro hmode
  have hclosed : b.canWrite = false := by
    cases hw : b.canWrite with
    | false => rfl
    | true => exact absurd (h.writes_of_canWrite hw) (by rw [show b.mode.writes = false from hmode]; simp)
  refine ⟨(h.unwritten hmode).1, ?_⟩
  rw [capacity_moved, valid_moved, hclosed]
  exact (h.unwritten hmode).2

/-- Without its reservation, a buffer is `Guarded` as before. -/
theorem Guarded.unreserved (h : b.Guarded own) : b.unreserved.Guarded own where
  ordered := h.ordered.unreserved
  coherent := h.coherent
  unwritten hmode := ⟨rfl, (h.unwritten hmode).2⟩
  issued := h.issued
  lease := h.lease
  reserved r hr := by cases hr
  live r hr := by cases hr.1

variable [LawfulStore σ]

/-- Where there was a tail to be `trimmed`, the epoch moves on; where there was none, nothing happens. -/
theorem Guarded.trimmed (h : b.Guarded own) : b.trimmed.Guarded own := by
  by_cases htail : b.valid < b.capacity
  · -- there is a tail, hence a writer: with the epoch moved on, nothing that was granted is live any more
    refine h.later h.ordered.trimmed ?_ ?_ ?_ ?_
    · rw [access_trimmed]
      exact h.coherent
    · intro hmode
      rw [mode, access_trimmed] at hmode
      have := (h.unwritten hmode).2
      omega
    · rw [changes_trimmed, if_pos htail]
      exact Nat.lt_succ_self _
    · intro r hr
      rwa [reservation_trimmed] at hr
  · rw [trimmed_eq_self b (Nat.not_lt.mp htail)]
    exact h

theorem Guarded.written (h : b.Guarded own) (hw : b.canWrite = true) {elements : σ}
    (hlimit : b.head + Store.size elements < positionLimit) : (b.written elements).Guarded own :=
  h.of_writer hw (h.ordered.written hw hlimit) (access_extended b _) (changes_lt_written b elements)
    fun _ hr => (reservation_extended b _).symm.trans hr

/-- A writer can seek anywhere below `positionLimit` and stay `Ordered`. -/
theorem Ordered.sought (h : b.Ordered) (hw : b.canWrite = true) {p : Nat} (hp : p < positionLimit) :
    ((b.extended p).moved p).Ordered := by
  apply (h.extended hp).moved
  rw [canWrite_extended, if_pos hw, capacity_extended p h]
  omega

theorem Guarded.sought (h : b.Guarded own) (hw : b.canWrite = true) {p : Nat} (hp : p < positionLimit) :
    ((b.extended p).moved p).Guarded own := by
  apply h.of_writer hw (h.ordered.sought hw hp) (access_extended b _) (changes_lt_sought b p)
  intro r hr
  rwa [reservation_moved, reservation_extended] at hr

/-- A new reservation is the only `Live` one, and it fits. -/
theorem Guarded.filled (h : b.Guarded own) (hw : b.canWrite = true) {n : Nat}
    (hlimit : b.head + n < positionLimit) (filling : σ) : (b.filled n filling).Guarded own where
  ordered := h.ordered.filled hlimit filling
  coherent := (access_filled b n filling).symm ▸ h.coherent
  unwritten hmode := by
    rw [mode, access_filled] at hmode
    exact absurd (h.writes_of_canWrite hw) (by rw [mode, hmode]; exact Bool.false_ne_true)
  issued t ht := Nat.le_trans (h.issued t ht) (Nat.le_succ_of_le (changes_le_trimmed b))
  lease t ht hepoch := by
    have hissued := h.issued t ht
    have hle := changes_le_trimmed b
    have hnew : (b.filled n filling).changes = b.trimmed.changes + 1 := rfl
    omega
  reserved r hr := by
    -- the recorded epoch is the count itself, cut to 64 bits
    cases hr
    show (UInt64.ofNat (b.trimmed.changes + 1)).toNat ≤ b.trimmed.changes + 1
    rw [UInt64.toNat_ofNat']
    exact Nat.mod_le _ _
  live r hr := by
    obtain ⟨hres, -⟩ := hr
    cases hres
    exact ⟨(canWrite_filled b n filling).trans hw, head_add_le_capacity_filled h.ordered n filling⟩

/-- A writer that commits within `capacity` stays `Ordered`. -/
theorem Ordered.committed (h : b.Ordered) {count : Nat} (hw : b.canWrite = true)
    (hroom : b.head + count ≤ b.capacity) : (b.committed count).Ordered :=
  (h.moved_unreserved hw hroom).trimmed

theorem Guarded.committed (h : b.Guarded own) {count : Nat} (hw : b.canWrite = true)
    (hroom : b.head + count ≤ b.capacity) : (b.committed count).Guarded own := by
  apply h.of_writer hw (h.ordered.committed hw hroom) (access_trimmed _) (changes_lt_committed b count)
  intro r hr
  unfold Buffer.committed at hr
  rw [reservation_trimmed] at hr
  cases hr

theorem Guarded.closed (h : b.Guarded own) {direction : Directions} (hc : b.access.closes direction = true) :
    (b.closed direction).Guarded own := by
  rw [closed_of_closes hc]
  have hshut : ({ b with access := b.access.close direction, changes := b.changes + 1, reservation := none } :
      Buffer σ).Guarded own := by
    refine h.later ⟨h.ordered.head_le, h.ordered.valid_le, h.ordered.capacity_lt⟩ (h.coherent.close direction) ?_
      (Nat.lt_succ_self _) ?_
    · intro hmode
      exact ⟨rfl, (h.unwritten hmode).2⟩
    · intro r hr
      cases hr
  exact hshut.trimmed

/-- Nothing of a closed buffer is `Live`, so its elements can go without the epoch moving on. -/
theorem Guarded.emptied (h : b.Guarded own) (hopen : b.isOpen = false) :
    ({ b with cursor := .zero, data := Store.empty } : Buffer σ).Guarded own := by
  have hzero : ({ b with cursor := .zero, data := Store.empty } : Buffer σ).capacity = 0 := Store.size_empty
  have hsides : b.canRead = false ∧ b.canWrite = false := Bool.or_eq_false_iff.mp hopen
  -- a live lease needs the reading side open, a live reservation the writing side, and both are closed
  refine ⟨⟨Nat.le_refl _, Nat.zero_le _, ?_⟩, h.coherent, ?_, h.issued, ?_, h.reserved, ?_⟩
  · rw [hzero]
    decide
  · intro hmode
    exact ⟨(h.unwritten hmode).1, hzero⟩
  · intro t ht hepoch
    have hread := (h.lease t ht hepoch).1
    rw [hsides.1] at hread
    cases hread
  · intro r hr
    have hwrite := (h.live r hr).1
    rw [hsides.2] at hwrite
    cases hwrite

/-- **Every `Change` keeps a buffer `Guarded`.** -/
theorem Change.guarded (hchange : Change b b') (h : b.Guarded own) : b'.Guarded own := by
  cases hchange with
  | pass p n _ hp hn => exact h.pass hp hn
  | trim => exact h.trimmed
  | write elements hw hlimit => exact h.written hw hlimit
  | seek p hw hp => exact h.sought hw hp
  | reserve n filling hw hlimit => exact h.filled hw hlimit filling
  | commit r count _ _ hw hroom hcount => exact h.committed hw (by omega)
  | abandon => exact h.unreserved.trimmed
  | close direction hc => exact h.closed hc
  | empty hopen => exact h.trimmed.emptied (by rw [isOpen, access_trimmed]; exact hopen)

/-- So every chain of `Changes` keeps a buffer `Guarded`. -/
theorem Changes.guarded (hchanges : Changes b b') (h : b.Guarded own) : b'.Guarded own := by
  induction hchanges with
  | refl => exact h
  | tail _ hstep ih => exact hstep.guarded ih

end Buffer

end MemStream
