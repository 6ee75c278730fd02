import MemStream.Proofs.Tail
import MemStream.Store.Cells

/-!
# `MemStream.Proofs.Counting` — which changes the epoch tells of

The epoch is there to tell that something has changed. Whatever an operation does to head, valid elements, store or open
sides, it counts: some changes once, some twice, and reading to the end once for every read, but never so often that
the epoch comes round to where it was. There is one exception. Handing out the elements of a buffer that is closed
already resets head and store, and nobody counts that.

Nothing is assumed of epochs and tickets here: the count may have come round before, and a ticket may be anybody's.

## Contents
- **Looks.** `Alike`: what the epoch should tell of is the same; `Neat`: where a tail can be.
- **Effects.** `Counted`: so many changes at most, and none of them unseen. One lemma per effect, and
  `perform_counted` for every operation but one.
- **The exception.** `emptied_unseen_iff`; with runs, `change_unseen_iff`.
-/

namespace MemStream

open StateAction

namespace Buffer

variable {σ α : Type} [Store σ α] {b c d : Buffer σ} {n m : Nat}

/-! ## Looks -/

/-- The same `head`, `valid`, `data` and open sides: what a caller can see of two buffers that counted differently. -/
structure Alike (b c : Buffer σ) : Prop where
  head : c.head = b.head
  valid : c.valid = b.valid
  data : c.data = b.data
  canRead : c.canRead = b.canRead
  canWrite : c.canWrite = b.canWrite

omit [Store σ α] in
theorem Alike.refl (b : Buffer σ) : Alike b b :=
  ⟨rfl, rfl, rfl, rfl, rfl⟩

omit [Store σ α] in
theorem Alike.trans (h : Alike b c) (h' : Alike c d) : Alike b d where
  head := h'.head.trans h.head
  valid := h'.valid.trans h.valid
  data := h'.data.trans h.data
  canRead := h'.canRead.trans h.canRead
  canWrite := h'.canWrite.trans h.canWrite

/-- A buffer is `Ordered`, and has a tail only where it can still be written to. -/
structure Neat (b : Buffer σ) : Prop where
  ordered : b.Ordered
  untailed : b.canWrite = false → b.capacity = b.valid

/-- What is left after at most `n` changes, and `Alike` unless they were counted. -/
structure Counted (n : Nat) (b c : Buffer σ) : Prop where
  neat : c.Neat
  changes_le : b.changes ≤ c.changes
  changes_le_add : c.changes ≤ b.changes + n
  alike : c.changes = b.changes → Alike b c

theorem Counted.refl (h : b.Neat) : Counted 0 b b :=
  ⟨h, Nat.le_refl _, Nat.le_refl _, fun _ => .refl b⟩

/-- Once the count of `changes` has gone up, it does not matter what else has changed. -/
theorem Counted.of_lt (hneat : c.Neat) (hlt : b.changes < c.changes) (hle : c.changes ≤ b.changes + n) :
    Counted n b c where
  neat := hneat
  changes_le := Nat.le_of_lt hlt
  changes_le_add := hle
  alike heq := absurd heq (Nat.ne_of_gt hlt)

theorem Counted.mono (h : Counted n b c) (hle : n ≤ m) : Counted m b c where
  neat := h.neat
  changes_le := h.changes_le
  changes_le_add := Nat.le_trans h.changes_le_add (Nat.add_le_add_left hle _)
  alike := h.alike

/-- What is `Counted` in two parts is `Counted` in their sum. -/
theorem Counted.trans (h : Counted n b c) (h' : Counted m c d) : Counted (n + m) b d where
  neat := h'.neat
  changes_le := Nat.le_trans h.changes_le h'.changes_le
  changes_le_add := by
    have hfirst := h.changes_le_add
    have hsecond := h'.changes_le_add
    omega
  alike heq := by
    -- a count that ends where it began has not gone up on the way
    have hfirst := h.changes_le
    have hsecond := h'.changes_le
    exact (h.alike (by omega)).trans (h'.alike (by omega))

omit [Store σ α] in
/-- An `epoch` comes round only after `epochLimit` changes. -/
theorem epoch_ne_of_changes (hlt : b.changes < c.changes) (hle : c.changes < b.changes + epochLimit) :
    c.epoch ≠ b.epoch := by
  intro heq
  have hmod := congrArg UInt64.toNat heq
  unfold epoch at hmod
  rw [UInt64.toNat_ofNat', UInt64.toNat_ofNat'] at hmod
  simp only [epochLimit, UInt64.size] at hle
  omega

/-- Fewer changes than `epochLimit` cannot go unseen: an equal `epoch` means `Alike` buffers. -/
theorem Counted.alike_of_epoch_eq (h : Counted n b c) (hn : n < epochLimit) (heq : c.epoch = b.epoch) : Alike b c := by
  apply h.alike
  rcases Nat.lt_or_eq_of_le h.changes_le with hlt | hsame
  · have hadd := h.changes_le_add
    exact absurd heq (epoch_ne_of_changes hlt (by omega))
  · exact hsame.symm

/-! ## Effects -/

theorem changes_trimmed_le (b : Buffer σ) : b.trimmed.changes ≤ b.changes + 1 := by
  rw [changes_trimmed]
  split <;> omega

theorem Neat.moved (h : b.Neat) {p : Nat} (hp : p ≤ if b.canWrite then b.capacity else b.valid) : (b.moved p).Neat where
  ordered := h.ordered.moved hp
  untailed hclosed := by
    have hw : b.canWrite = false := hclosed
    rw [capacity_moved, valid_moved, hw]
    exact h.untailed hw

theorem Counted.moved (h : b.Neat) {p : Nat} (hp : p ≤ if b.canWrite then b.capacity else b.valid) :
    Counted 1 b (b.moved p) :=
  .of_lt (h.moved hp) (Nat.lt_succ_self _) (Nat.le_refl _)

/-- Of a row of reads, each one that gives something counts, and none gives more than is `valid`. -/
theorem Counted.browsed (h : b.Neat) (hbrowsed : Browsed b c) : Counted (max 1 b.valid) b c := by
  cases hbrowsed with
  | stay => exact (Counted.refl h).mono (Nat.zero_le _)
  | pass p n _ hp hpos hle =>
      refine .of_lt ⟨⟨hp, h.ordered.valid_le, h.ordered.capacity_lt⟩, h.untailed⟩ (Nat.lt_add_of_pos_right hpos) ?_
      exact Nat.add_le_add_left hle _

variable [LawfulStore σ]

/-- Once `trimmed`, a buffer is `Neat`. -/
theorem Neat.trimmed (h : b.Ordered) : b.trimmed.Neat :=
  ⟨h.trimmed, fun _ => capacity_trimmed_of_ordered h⟩

theorem Counted.trimmed (h : b.Ordered) : Counted 1 b b.trimmed := by
  refine ⟨.trimmed h, changes_le_trimmed b, changes_trimmed_le b, ?_⟩
  intro heq
  -- a tail that was there would have been counted
  have hnone : b.capacity ≤ b.valid := by
    rw [changes_trimmed] at heq
    split at heq <;> omega
  rw [trimmed_eq_self b hnone]
  exact .refl b

theorem Counted.closed (h : b.Neat) (direction : Directions) : Counted 2 b (b.closed direction) := by
  cases hc : b.access.closes direction with
  | true =>
      refine .of_lt ?_ (changes_lt_closed hc) ?_
      · -- the tail goes only after the sides are closed, so it is the state after that which is neat
        rw [closed_of_closes hc]
        have hshut : ({ b with access := b.access.close direction, changes := b.changes + 1, reservation := none } :
            Buffer σ).Ordered := ⟨h.ordered.head_le, h.ordered.valid_le, h.ordered.capacity_lt⟩
        exact .trimmed hshut
      · rw [closed_of_closes hc]
        exact changes_trimmed_le _
  | false =>
      rw [closed_eq_self hc]
      exact (Counted.refl h).mono (by omega)

theorem Counted.written (h : b.Ordered) (hw : b.canWrite = true) {elements : σ}
    (hlimit : b.head + Store.size elements < positionLimit) : Counted 2 b (b.written elements) := by
  refine .of_lt ⟨h.written hw hlimit, fun _ => capacity_written h hw elements⟩ (changes_lt_written b elements) ?_
  show (b.extended (b.head + Store.size elements)).changes + 1 ≤ b.changes + 2
  rw [changes_extended]
  exact Nat.succ_le_succ (changes_trimmed_le b)

theorem Counted.sought (h : b.Ordered) (hw : b.canWrite = true) {p : Nat} (hp : p < positionLimit) :
    Counted 2 b ((b.extended p).moved p) := by
  refine .of_lt ⟨h.sought hw hp, fun _ => capacity_sought h hw p⟩ (changes_lt_sought b p) ?_
  rw [changes_moved, changes_extended]
  exact Nat.succ_le_succ (changes_trimmed_le b)

theorem Counted.filled (h : b.Ordered) (hg : b.grants n = true) (filling : σ) : Counted 2 b (b.filled n filling) := by
  obtain ⟨hw, hlimit, -⟩ := grants_iff.mp hg
  refine .of_lt ⟨h.filled hlimit filling, ?_⟩ (Nat.lt_succ_of_le (changes_le_trimmed b))
    (Nat.succ_le_succ (changes_trimmed_le b))
  intro hclosed
  rw [canWrite_filled, hw] at hclosed
  cases hclosed

omit [LawfulStore σ] in
/-- A reservation can be dropped without anything to be seen of it. -/
theorem Counted.unreserved (h : b.Neat) : Counted 0 b b.unreserved :=
  ⟨⟨h.ordered.unreserved, h.untailed⟩, Nat.le_refl _, Nat.le_refl _, fun _ => ⟨rfl, rfl, rfl, rfl, rfl⟩⟩

theorem Counted.abandoned (h : b.Neat) : Counted 1 b b.abandoned :=
  (Counted.unreserved h).trans (.trimmed h.ordered.unreserved)

theorem Counted.committed (h : b.Neat) {count : Nat}
    (hp : b.head + count ≤ if b.canWrite then b.capacity else b.valid) : Counted 2 b (b.committed count) := by
  have hunreserved := Counted.unreserved h
  have hmoved := hunreserved.trans (.moved hunreserved.neat hp)
  exact hmoved.trans (.trimmed hmoved.neat.ordered)

/-- Nothing that one `Turn` can leave goes unseen. -/
theorem Counted.of_turn (h : b.Neat) (hturn : Turn b c) : Counted (max 4 b.valid) b c := by
  cases hturn with
  | browse hbrowsed => exact (Counted.browsed h hbrowsed).mono (by omega)
  | trim => exact (Counted.trimmed h.ordered).mono (by omega)
  | write elements hw hlimit => exact (Counted.written h.ordered hw hlimit).mono (by omega)
  | seek p hw hp => exact (Counted.sought h.ordered hw hp).mono (by omega)
  | reserve n filling hg => exact (Counted.filled h.ordered hg filling).mono (by omega)
  | reserveAndCommit n filling count hg hcount =>
      have hfilled := Counted.filled h.ordered hg filling
      have hw : (b.filled n filling).canWrite = true := (canWrite_filled b n filling).trans (grants_iff.mp hg).1
      have hroom := head_add_le_capacity_filled h.ordered n filling
      have hmove : (b.filled n filling).head + count ≤
          if (b.filled n filling).canWrite then (b.filled n filling).capacity else (b.filled n filling).valid := by
        rw [if_pos hw]
        omega
      exact (hfilled.trans (.committed hfilled.neat hmove)).mono (by omega)
  | reserveAndAbandon n filling hg =>
      have hfilled := Counted.filled h.ordered hg filling
      exact (hfilled.trans (.abandoned hfilled.neat)).mono (by omega)
  | abandon => exact (Counted.abandoned h).mono (by omega)
  | close direction _ => exact (Counted.closed h direction).mono (by omega)

/-! ## Operations -/

/-- **No operation but `takeData` changes anything unseen.** -/
theorem perform_counted (h : b.Neat) {operation : Operation σ α} (hfits : operation.Fits)
    (hother : operation ≠ .takeData) {step : Step (Buffer σ) Event (Answer σ α)}
    (hrun : operation.perform.run b = .ok step) : ∃ n < epochLimit, Counted n b step.state := by
  rcases perform_cases h.ordered hfits hrun with hturn | ⟨p, hp, hstate⟩ | ⟨count, hcount, hstate⟩ | ⟨htake, -⟩
  · refine ⟨_, ?_, .of_turn h hturn⟩
    have hvalid := h.ordered.valid_le
    have hlimit := h.ordered.capacity_lt
    have hfour : 4 < positionLimit := by decide
    show max 4 b.valid < positionLimit
    omega
  · rw [hstate]
    exact ⟨1, by decide, .moved h hp⟩
  · rw [hstate]
    exact ⟨2, by decide, .committed h hcount⟩
  · exact absurd htake hother

/-! ## The exception -/

theorem neat_emptied (b : Buffer σ) : b.emptied.Neat := by
  have hzero : b.emptied.capacity = 0 := Store.size_empty
  refine ⟨⟨Nat.le_refl _, Nat.zero_le _, ?_⟩, fun _ => hzero⟩
  rw [hzero]
  decide

/-- In `emptied`, closing comes first, and closing counts. -/
theorem changes_emptied_of_isOpen (h : b.Neat) (hopen : b.isOpen = true) :
    b.changes < b.emptied.changes ∧ b.emptied.changes ≤ b.changes + 3 := by
  have hclosed := Counted.closed h .both
  have hchain := hclosed.trans (.trimmed hclosed.neat.ordered)
  have hcloses : b.access.closes .both = true := by rw [closes_both, hopen]
  exact ⟨Nat.lt_of_lt_of_le (changes_lt_closed hcloses) (changes_le_trimmed _), hchain.changes_le_add⟩

/-- To be `emptied` goes unseen where the buffer is closed already and has elements. -/
theorem emptied_unseen_iff (h : b.Neat) :
    (¬ Alike b b.emptied ∧ b.emptied.epoch = b.epoch) ↔ b.isOpen = false ∧ 0 < b.valid := by
  cases hopen : b.isOpen with
  | true =>
      obtain ⟨hlt, hle⟩ := changes_emptied_of_isOpen h hopen
      have hne : b.emptied.epoch ≠ b.epoch := by
        apply epoch_ne_of_changes hlt
        have hthree : 3 < epochLimit := by decide
        omega
      exact ⟨fun hunseen => absurd hunseen.2 hne, nofun⟩
  | false =>
      -- a buffer that is closed already has no tail
      rw [emptied_of_not_isOpen hopen (h.untailed (Bool.or_eq_false_iff.mp hopen).2)]
      constructor
      · rintro ⟨hdiffers, -⟩
        refine ⟨rfl, Nat.pos_of_ne_zero ?_⟩
        intro hvalid
        -- without valid elements the head was at the start and the store was empty
        have hhead : b.head = 0 := Nat.eq_zero_of_le_zero (hvalid ▸ h.ordered.head_le)
        have hcapacity : Store.size b.data = 0 :=
          (h.untailed (Bool.or_eq_false_iff.mp hopen).2).trans hvalid
        have hdata : (Store.empty : σ) = b.data := by
          apply Store.ext_toList
          rw [Store.toList_empty, List.length_eq_zero_iff.mp ((Store.length_toList b.data).trans hcapacity)]
        exact hdiffers ⟨hhead.symm, hvalid.symm, hdata, rfl, rfl⟩
      · rintro ⟨-, hvalid⟩
        refine ⟨?_, rfl⟩
        intro halike
        exact absurd halike.valid (Nat.ne_of_lt hvalid)

end Buffer

/-! ## Runs -/

variable {σ α : Type} [Store σ α] [LawfulStore σ] {b c : Buffer σ} {entries : List (Entry σ α)}

/-- Every operation that does not fault leaves a `Neat` buffer `Neat`. -/
theorem Buffer.Neat.perform (h : b.Neat) {operation : Operation σ α} (hfits : operation.Fits)
    {step : Step (Buffer σ) Event (Answer σ α)} (hrun : operation.perform.run b = .ok step) : step.state.Neat := by
  by_cases hother : operation = .takeData
  · subst hother
    rw [Buffer.state_of_takeData hrun]
    exact Buffer.neat_emptied b
  · obtain ⟨n, -, hcounted⟩ := Buffer.perform_counted h hfits hother hrun
    exact hcounted.neat

/-- Whatever tickets are presented in a `Run`, it leaves a `Neat` buffer `Neat`. -/
theorem Run.neat (h : Run b entries c) (hb : b.Neat) : c.Neat := by
  induction h with
  | done b => exact hb
  | next hfits hrun _ ih => exact ih (hb.perform hfits hrun)

omit [LawfulStore σ] in
theorem Buffer.New.neat (h : b.New) : b.Neat := by
  refine ⟨h.guarded.ordered, ?_⟩
  obtain ⟨data, mode, access, label, -, -, rfl⟩ := h
  exact fun _ => rfl

/-- **The epoch tells of every change but one.** Whatever was done to a buffer before, with whatever tickets: an
    operation leaves a buffer that is not `Alike` under the same `epoch` in one case only, when `takeData` hands out the
    elements of a buffer that is closed and has some. -/
theorem change_unseen_iff {first last : Buffer σ} (hnew : first.New) (hrun : Run first entries last)
    {operation : Operation σ α} (hfits : operation.Fits) {step : Step (Buffer σ) Event (Answer σ α)}
    (hstep : operation.perform.run last = .ok step) :
    (¬ Buffer.Alike last step.state ∧ step.state.epoch = last.epoch) ↔
      operation = .takeData ∧ last.isOpen = false ∧ 0 < last.valid := by
  have hneat := hrun.neat hnew.neat
  by_cases htake : operation = .takeData
  · subst htake
    rw [Buffer.state_of_takeData hstep, Buffer.emptied_unseen_iff hneat]
    exact ⟨fun hcase => ⟨rfl, hcase⟩, fun hcase => hcase.2⟩
  · obtain ⟨n, hn, hcounted⟩ := Buffer.perform_counted hneat hfits htake hstep
    constructor
    · rintro ⟨hdiffers, hepoch⟩
      exact absurd (hcounted.alike_of_epoch_eq hn hepoch) hdiffers
    · rintro ⟨hcase, -⟩
      exact absurd hcase htake

/-- A buffer for `Directions.none` is closed from the start. Its elements can be had by `takeData`, once, and the
    `epoch` stays. -/
theorem change_unseen_of_born_closed :
    ∃ (b : Buffer SmallBytes) (step : Step (Buffer SmallBytes) Event (Answer SmallBytes UInt8)),
      b.New ∧ Run b [] b ∧ (Operation.takeData : Operation SmallBytes UInt8).Fits ∧
        Operation.takeData.perform.run b = .ok step ∧
        ¬ Buffer.Alike b step.state ∧ step.state.epoch = b.epoch := by
  let b : Buffer SmallBytes := Buffer.start ⟨#[1, 2]⟩ ⟨.none, false, false⟩ "c"
  have hnew : b.New := ⟨⟨#[1, 2]⟩, .none, ⟨.none, false, false⟩, "c", rfl, by decide, rfl⟩
  have hstep : (Operation.takeData : Operation SmallBytes UInt8).perform.run b =
      .ok ⟨.elements ⟨#[1, 2]⟩, { b with cursor := .zero, data := ⟨#[]⟩ }, []⟩ := by
    cbv
  have hfits : (Operation.takeData : Operation SmallBytes UInt8).Fits := trivial
  have hunseen := (change_unseen_iff hnew (.done b) hfits hstep).mpr ⟨rfl, rfl, by decide⟩
  exact ⟨b, _, hnew, .done b, hfits, hstep, hunseen⟩

/-- So it is not true that every change moves the `epoch` on: a reader of two bytes that is closed and then hands out
    its elements by `takeData` loses them under the epoch of the close. -/
theorem not_every_change_seen :
    ¬ ∀ (first last : Buffer SmallBytes) (entries : List (Entry SmallBytes UInt8))
        (operation : Operation SmallBytes UInt8) (step : Step (Buffer SmallBytes) Event (Answer SmallBytes UInt8)),
      first.New → Run first entries last → operation.Fits → operation.perform.run last = .ok step →
        step.state.head ≠ last.head ∨ step.state.valid ≠ last.valid ∨ step.state.data ≠ last.data ∨
          step.state.canRead ≠ last.canRead ∨ step.state.canWrite ≠ last.canWrite →
        step.state.epoch ≠ last.epoch := by
  intro hall
  let first : Buffer SmallBytes := Buffer.start ⟨#[1, 2]⟩ .reader "r"
  let last : Buffer SmallBytes := { first with access := ⟨.reading, false, false⟩, changes := 1 }
  have hnew : first.New := ⟨⟨#[1, 2]⟩, .reading, .reader, "r", rfl, by decide, rfl⟩
  have hclose : (Operation.close .reading : Operation SmallBytes UInt8).perform.run first =
      .ok ⟨.flag true, last, [⟨"r", .closed .reading false⟩]⟩ := by
    cbv
  have htake : (Operation.takeData : Operation SmallBytes UInt8).perform.run last =
      .ok ⟨.elements ⟨#[1, 2]⟩, { last with cursor := .zero, data := ⟨#[]⟩ }, []⟩ := by
    cbv
  have hfits : (Operation.close .reading : Operation SmallBytes UInt8).Fits := trivial
  have hrun : Run first [⟨first, .close .reading, .flag true, last⟩] last := .next hfits hclose (.done last)
  exact hall first last _ .takeData _ hnew hrun trivial htake (.inr (.inl (by decide))) rfl

end MemStream
