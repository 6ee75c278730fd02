import MemStream.Proofs.Refused

/-!
# `MemStream.Proofs.InPlace` — writing in place

A writer that is given room fills it where it is and commits as much as it filled. The room may lie among the valid
elements, begin among them or begin behind them, and it may be longer than what is committed. Nothing of this shows in
the end: what was committed is where a write would have put it, and what was not is gone with the tail. Only a filling
that lies over valid elements stays, committed or not.

## Contents
- **Lengths to grow to.** `Store.GrowsTo` says it of all stores of a kind at once; `Store.TakesLess` and
  `Store.TakesInSteps` are what follows of it and is assumed where it is needed.
- **Elements.** `Buffer.laidOver` for a piece put over the valid elements, `Buffer.vacancy` for what is in new room.
- **Commits.** What a filled reservation leaves when it is committed or given up.
- **Filling and writing.** `FillsLikeWriting`, `KeepsUncommitted`; `filling_agrees_with_writing` for stores that would
  grow to any shorter length, too (`Store.TakesLess`).
- **All in one.** `FillsAtOnce`, `fills_at_once`.
-/

namespace MemStream

open StateAction

namespace Store

/-! ## Lengths to grow to -/

/-- Every store of the kind `σ` would grow to the same `lengths`, and with each of them to all shorter ones. What
    follows of a store with the elements it has is `TakesLess`, and of two stores of which one has grown, `TakesInSteps`;
    statements assume no more of `Store.accepts` than the one of these that they need. -/
structure GrowsTo (σ : Type) {α : Type} [Store σ α] (lengths : Nat → Prop) : Prop where
  shorter : ∀ m n, m ≤ n → lengths n → lengths m
  accepts_iff : ∀ (s : σ) n, size s < n → (accepts s n = true ↔ lengths n)

/-- A store that would grow to some length would grow to any shorter one, too. -/
def TakesLess (σ : Type) {α : Type} [Store σ α] : Prop :=
  ∀ (s : σ) (m n : Nat), size s < m → m ≤ n → accepts s n = true → accepts s m = true

/-- What a store would grow to, every store that is no shorter would grow to as well, and to all lengths on the way. -/
def TakesInSteps (σ : Type) {α : Type} [Store σ α] : Prop :=
  ∀ (s t : σ) (m n : Nat), size s ≤ size t → size t < m → m ≤ n → accepts s n = true → accepts t m = true

section Lengths

variable {σ α : Type} [Store σ α] {lengths : Nat → Prop}

/-- What one store would grow to is one of the `lengths`, so all shorter ones are, too, and any other store would grow
    to them. -/
theorem GrowsTo.takesInSteps (h : GrowsTo σ lengths) : TakesInSteps σ := by
  intro s t m n hst htm hmn hn
  have hlengths : lengths n := (h.accepts_iff s n (by omega)).mp hn
  exact (h.accepts_iff t m htm).mpr (h.shorter m n hmn hlengths)

/-- So `TakesLess` is `TakesInSteps` of a store that has not grown. -/
theorem TakesInSteps.takesLess (h : TakesInSteps σ) : TakesLess σ := by
  intro s m n hsm hmn hn
  exact h s s m n (Nat.le_refl _) hsm hmn hn

end Lengths

/-- All `Cells` grow to any length up to their `limit`. -/
theorem growsTo_cells {α : Type} [Blank α] {limit : Nat} : GrowsTo (Cells α limit) (· ≤ limit) where
  shorter _ _ hle := Nat.le_trans hle
  accepts_iff s n _ := Cells.accepts_iff s n

end Store

namespace Buffer

variable {σ α : Type} [Store σ α] {b : Buffer σ}

/-! ## Elements -/

/-- The `content` with `piece` in place of what it has from the head on, and behind it where `piece` is longer. -/
def laidOver (b : Buffer σ) (piece : List α) : List α :=
  b.content.take b.head ++ piece ++ b.content.drop (b.head + piece.length)

/-- What new room for `n` elements shows: the `content` from the head on, and blanks behind it. -/
def vacancy (b : Buffer σ) (n : Nat) : List α :=
  (b.content.drop b.head).take n ++ List.replicate (b.head + n - b.valid) (Store.blank σ)

variable [LawfulStore σ]

theorem toList_overlay_trimmed (b : Buffer σ) (piece : σ) :
    Store.toList (Store.overlay b.trimmed.data b.head piece) = b.laidOver (Store.toList piece) := by
  rw [Store.toList_overlay, toList_trimmed, laidOver, Store.length_toList]

/-- Of a piece `laidOver` the valid elements, the part that lies among them is its front. -/
theorem take_laidOver (h : b.Ordered) (piece : σ) :
    (b.laidOver (Store.toList piece)).take b.valid =
      b.laidOver ((Store.toList piece).take (b.valid - b.head)) := by
  have hsize : Store.size b.trimmed.data = b.valid := capacity_trimmed_eq_valid h
  have htake := Store.take_toList_overlay b.trimmed.data piece (head_le_size_trimmed h)
  rw [hsize, toList_overlay_trimmed, toList_overlay_trimmed, LawfulStore.toList_slice, List.drop_zero] at htake
  exact htake

/-- The `room` that is granted shows the `vacancy`. -/
theorem toList_room (h : b.Ordered) (n : Nat) : Store.toList (b.room n) = b.vacancy n := by
  have hlength : (b.content.drop b.head).length = b.valid - b.head := by
    rw [List.length_drop, length_content h]
  have hhead : b.head ≤ b.content.length := by
    rw [length_content h]
    exact h.head_le
  unfold room vacancy
  rw [LawfulStore.toList_slice, toList_extended _ h, List.drop_append_of_le_length hhead, List.take_append, hlength,
    List.take_replicate]
  congr 2
  have := h.head_le
  omega

/-! ## Commits -/

section Committed

omit [LawfulStore σ]

variable (b : Buffer σ) (count : Nat)

theorem head_committed : (b.committed count).head = b.head + count := head_trimmed _
theorem access_committed : (b.committed count).access = b.access := access_trimmed _
theorem reservation_committed : (b.committed count).reservation = none := reservation_trimmed _

variable {b}

theorem valid_moved_unreserved (hw : b.canWrite = true) :
    (b.unreserved.moved (b.head + count)).valid = max b.valid (b.head + count) := by
  rw [valid_moved, show b.unreserved.canWrite = true from hw, if_pos rfl]
  rfl

theorem valid_committed (hw : b.canWrite = true) : (b.committed count).valid = max b.valid (b.head + count) :=
  (valid_trimmed _).trans (valid_moved_unreserved count hw)

end Committed

/-- A `commit` cuts the store off behind what has become valid. -/
theorem data_committed (h : b.Ordered) (hw : b.canWrite = true) {count : Nat} (hroom : b.head + count ≤ b.capacity) :
    (b.committed count).data = Store.resize b.data (max b.valid (b.head + count)) := by
  rw [Buffer.committed, data_trimmed (h.moved_unreserved hw hroom), valid_moved_unreserved count hw]
  rfl

theorem capacity_committed (h : b.Ordered) (hw : b.canWrite = true) {count : Nat}
    (hroom : b.head + count ≤ b.capacity) : (b.committed count).capacity = (b.committed count).valid :=
  capacity_trimmed_of_ordered (h.moved_unreserved hw hroom)

theorem capacity_abandoned (h : b.Ordered) : b.abandoned.capacity = b.abandoned.valid :=
  capacity_trimmed_of_ordered h.unreserved

section Filled

variable {n count : Nat} {piece : σ}

omit [LawfulStore σ] in
theorem head_filled_committed : ((b.filled n piece).committed count).head = b.head + count := by
  rw [head_committed, head_filled]

omit [LawfulStore σ] in
theorem valid_filled_committed (hw : b.canWrite = true) :
    ((b.filled n piece).committed count).valid = max b.valid (b.head + count) := by
  have hwrite : (b.filled n piece).canWrite = true := (canWrite_filled b n piece).trans hw
  rw [valid_committed count hwrite, valid_filled, head_filled]

/-- What is committed of a filling ends in the `room` that was made for it. -/
theorem head_filled_add_le (h : b.Ordered) (piece : σ) (hcount : count ≤ n) :
    (b.filled n piece).head + count ≤ (b.filled n piece).capacity :=
  Nat.le_trans (Nat.add_le_add_left hcount _) (head_add_le_capacity_filled h n piece)

theorem capacity_filled_committed (h : b.Ordered) (hw : b.canWrite = true) (hlimit : b.head + n < positionLimit)
    (hcount : count ≤ n) :
    ((b.filled n piece).committed count).capacity = ((b.filled n piece).committed count).valid :=
  capacity_committed (h.filled hlimit piece) ((canWrite_filled b n piece).trans hw) (head_filled_add_le h piece hcount)

/-- A filling as long as its room is `laidOver` the valid elements. -/
theorem toList_filled (h : b.Ordered) (hpiece : Store.size piece = n) :
    Store.toList (b.filled n piece).data = b.laidOver (Store.toList piece) := by
  have hfit : Store.size piece = Store.size (b.room n) := by rw [hpiece, size_room h]
  rw [data_filled h, Store.overlayFront_eq hfit, toList_overlay_trimmed]

/-- A `room` that is long enough for what is committed is cut off behind it. -/
theorem data_filled_committed (h : b.Ordered) (hw : b.canWrite = true) (hlimit : b.head + n < positionLimit)
    (hcount : count ≤ n) :
    ((b.filled n piece).committed count).data =
      Store.resize (b.filled n piece).data (max b.valid (b.head + count)) := by
  have hwrite : (b.filled n piece).canWrite = true := (canWrite_filled b n piece).trans hw
  rw [data_committed (h.filled hlimit piece) hwrite (head_filled_add_le h piece hcount), head_filled, valid_filled]

/-- What is `committed` stays, and so does what lies among the valid elements. -/
theorem toList_filled_committed (h : b.Ordered) (hw : b.canWrite = true) (hlimit : b.head + n < positionLimit)
    (hpiece : Store.size piece = n) (hcount : count ≤ n) :
    Store.toList ((b.filled n piece).committed count).data =
      (b.laidOver (Store.toList piece)).take (max b.valid (b.head + count)) := by
  have hsize : Store.size (b.filled n piece).data = max b.valid (b.head + n) := capacity_filled h n piece
  have hshort : max b.valid (b.head + count) - Store.size (b.filled n piece).data = 0 := by
    rw [hsize]
    omega
  rw [data_filled_committed h hw hlimit hcount, Store.toList_resize, hshort, List.replicate_zero, List.append_nil,
    toList_filled h hpiece]

/-- Of a filling that is `abandoned`, what lies among the valid elements stays. -/
theorem toList_filled_abandoned (h : b.Ordered) (hpiece : Store.size piece = n) :
    Store.toList (b.filled n piece).abandoned.data =
      b.laidOver ((Store.toList piece).take (b.valid - b.head)) := by
  have hcontent : (b.filled n piece).content = (b.laidOver (Store.toList piece)).take b.valid := by
    rw [content, toList_filled h hpiece, valid_filled]
  rw [Buffer.abandoned, toList_trimmed]
  exact hcontent.trans (take_laidOver h piece)

/-- Filled from the front and `committed` as far as it was filled, a `room` holds what a `write` would have put there,
    however long it was. -/
theorem data_filled_committed_eq_overlay (h : b.Ordered) (hw : b.canWrite = true) (hlimit : b.head + n < positionLimit)
    (hpiece : Store.size piece ≤ n) :
    ((b.filled n piece).committed (Store.size piece)).data = Store.overlay b.trimmed.data b.head piece := by
  have hsize : Store.size (b.extended (b.head + n)).data = max b.valid (b.head + n) := capacity_extended _ h
  have htrimmed : Store.size b.trimmed.data = b.valid := capacity_trimmed_eq_valid h
  have hstop : b.head + n ≤ Store.size (b.extended (b.head + n)).data := by
    rw [hsize]
    exact Nat.le_max_right _ _
  have hcut : max b.valid (b.head + Store.size piece) ≤ Store.size (b.extended (b.head + n)).data := by
    rw [hsize]
    omega
  calc ((b.filled n piece).committed (Store.size piece)).data
      = Store.resize (b.filled n piece).data (max b.valid (b.head + Store.size piece)) :=
        data_filled_committed h hw hlimit hpiece
    _ = Store.resize (Store.overlay (b.extended (b.head + n)).data b.head piece)
          (max b.valid (b.head + Store.size piece)) :=
        congrArg (Store.resize · _) (Store.overlay_overlayFront_slice hpiece hstop)
    _ = Store.overlay (Store.resize (b.extended (b.head + n)).data (max b.valid (b.head + Store.size piece)))
          b.head piece :=
        -- all that was filled is before the cut
        Store.resize_overlay (Nat.le_max_right _ _) hcut
    _ = Store.overlay (Store.resize b.trimmed.data (max (Store.size b.trimmed.data) (b.head + Store.size piece)))
          b.head piece := by
        rw [data_extended _ h, htrimmed, Store.resize_resize]
        omega
    _ = Store.overlay b.trimmed.data b.head piece :=
        Store.overlay_resize_max _ _ (head_le_size_trimmed h)

end Filled

/-! ## Filling and writing -/

/-- Where the buffer `yields` room for `n` elements, it is granted, and to fill its front with `elements` and to
    `commit` that much is to `write` them: both go through in full, and the buffers they leave are `Alike`. -/
def FillsLikeWriting (b : Buffer σ) (n : Nat) (elements : σ) : Prop :=
  ∃ reserved, (Operation.reserve n elements : Operation σ α).perform.run b = .ok reserved ∧
    if b.yields (b.reach? n) then
      ∃ region committed written, reserved.value = .region (some region) ∧ Store.toList region = b.vacancy n ∧
        (Operation.commit (Store.size elements) : Operation σ α).perform.run reserved.state = .ok committed ∧
        (Operation.write elements : Operation σ α).perform.run b = .ok written ∧
        committed.value = .settled (.ok (Store.size elements)) ∧ written.value = .count (Store.size elements) ∧
        written.state.Alike committed.state
    else reserved.value = .region none

/-- Where the buffer `yields` room for `n` elements, it is granted, and to fill and to `commit` nothing of it leaves
    head and valid elements as they were, and no tail. -/
def KeepsUncommitted (b : Buffer σ) (n : Nat) : Prop :=
  ∃ reserved, (Operation.reserve n Store.empty : Operation σ α).perform.run b = .ok reserved ∧
    if b.yields (b.reach? n) then
      ∃ region committed, reserved.value = .region (some region) ∧ Store.toList region = b.vacancy n ∧
        (Operation.commit 0 : Operation σ α).perform.run reserved.state = .ok committed ∧
        committed.value = .settled (.ok 0) ∧ committed.state.content = b.content ∧
        committed.state.head = b.head ∧ committed.state.valid = b.valid ∧
        committed.state.capacity = committed.state.valid
    else reserved.value = .region none

/-- Where some room is granted, less would be, if the store `TakesLess`. -/
theorem yields_reach?_of_le (hless : Store.TakesLess σ) {k n : Nat} (hk : k ≤ n)
    (hn : b.yields (b.reach? n) = true) : b.yields (b.reach? k) = true := by
  unfold reach? at hn
  split at hn
  · next hgo =>
      have hreach : b.reach? k = some (b.head + k) := if_pos ⟨hgo.1, by omega⟩
      rw [hreach]
      simp only [yields_some, reaches, Bool.or_eq_true, decide_eq_true_eq] at hn ⊢
      by_cases hinside : b.head + k ≤ b.valid
      · exact .inl hinside
      · have hbeyond : Store.size (Store.resize b.data b.valid) < b.head + k := by
          rw [Store.size_resize]
          omega
        have haccepts := hn.resolve_left (by omega)
        exact .inr (hless _ _ _ hbeyond (by omega) haccepts)
  · simp at hn

omit [LawfulStore σ] in
/-- Room is granted by a buffer that `canWrite` only, and only up to a position. -/
theorem canWrite_of_yields {n : Nat} (h : b.yields (b.reach? n) = true) :
    b.canWrite = true ∧ b.head + n < positionLimit := by
  unfold reach? at h
  split at h
  · next hgo => exact hgo
  · simp at h

/-- A `write` and a `commit` of the same elements leave buffers that are `Alike`. -/
theorem alike_written_committed (h : b.Ordered) {n : Nat} (hw : b.canWrite = true)
    (hlimit : b.head + n < positionLimit) {elements : σ} (hsize : Store.size elements ≤ n) :
    (b.written elements).Alike ((b.filled n elements).committed (Store.size elements)) := by
  have haccess : ((b.filled n elements).committed (Store.size elements)).access = (b.written elements).access := by
    rw [access_committed, access_filled]
    exact (access_extended b _).symm
  refine ⟨?_, ?_, ?_, congrArg Access.readOpen haccess, congrArg Access.writeOpen haccess⟩
  · exact head_filled_committed
  · rw [valid_filled_committed hw, valid_written elements hw]
  · rw [data_filled_committed_eq_overlay h hw hlimit hsize, data_written h]

/-- Over a store that `TakesLess`, every buffer fills like writing: the `write` is granted where the longer `room`
    is. -/
theorem fillsLikeWriting (h : b.Ordered) (hless : Store.TakesLess σ) {n : Nat} {elements : σ}
    (hpos : 0 < Store.size elements) (hsize : Store.size elements ≤ n) : b.FillsLikeWriting n elements := by
  obtain ⟨events, hreserve⟩ := run_reserve_yields h n elements
  refine ⟨_, run_answer hreserve Answer.region, ?_⟩
  split
  · next hyields =>
      obtain ⟨hw, hlimit⟩ := canWrite_of_yields hyields
      obtain ⟨events', hwrite⟩ := run_write_yields h elements
      have hplace : (Operation.write elements : Operation σ α).place? b = b.reach? (Store.size elements) :=
        if_pos hpos
      rw [hplace, if_pos (yields_reach?_of_le hless hsize hyields)] at hwrite
      exact ⟨b.room n, _, _, rfl, toList_room h n,
        run_answer (run_commit_filled h hw hlimit elements hsize) Answer.settled, run_answer hwrite Answer.count,
        rfl, rfl, alike_written_committed h hw hlimit hsize⟩
  · rfl

/-- A `commit` of nothing moves nothing, and drops the tail. -/
theorem keepsUncommitted (h : b.Ordered) (n : Nat) : b.KeepsUncommitted n := by
  obtain ⟨events, hreserve⟩ := run_reserve_yields h n Store.empty
  refine ⟨_, run_answer hreserve Answer.region, ?_⟩
  split
  · next hyields =>
      obtain ⟨hw, hlimit⟩ := canWrite_of_yields hyields
      have hvalid : ((b.filled n Store.empty).committed 0).valid = b.valid :=
        (valid_filled_committed hw).trans (Nat.max_eq_left h.head_le)
      have hcapacity : ((b.filled n Store.empty).committed 0).capacity =
          ((b.filled n Store.empty).committed 0).valid :=
        capacity_filled_committed h hw hlimit (Nat.zero_le n)
      have hshort : Store.size (Store.empty : σ) ≤ n := by simp
      have hdata := data_filled_committed_eq_overlay h hw hlimit hshort
      rw [Store.size_empty] at hdata
      refine ⟨b.room n, _, rfl, toList_room h n,
        run_answer (run_commit_filled h hw hlimit Store.empty (Nat.zero_le n)) Answer.settled, rfl, ?_,
        head_filled_committed, hvalid, hcapacity⟩
      -- with nothing laid over them, the valid elements are the whole store
      rw [content_eq_toList (Nat.le_of_eq hcapacity), hdata, toList_overlay_trimmed]
      simp [laidOver]
  · rfl

/-! ## All in one -/

/-- What comes of filling granted room for `n` elements with `piece` and committing `count` of them at once. What is
    committed moves head and valid elements; if it is too much, the `answer` says so, and only elements that were valid
    before have changed. There is no tail and no reservation afterwards. -/
structure FilledBy (b : Buffer σ) (n : Nat) (piece : σ) (count : Nat) (answer : Except Refusal Nat) (c : Buffer σ) :
    Prop where
  access : c.access = b.access
  reservation : c.reservation = none
  capacity : c.capacity = c.valid
  committed : count ≤ n → answer = .ok count ∧ c.head = b.head + count ∧ c.valid = max b.valid (b.head + count) ∧
    Store.toList c.data = (b.laidOver (Store.toList piece)).take (max b.valid (b.head + count))
  overrun : n < count → answer = .error (.leaseOverrun count n) ∧ c.head = b.head ∧ c.valid = b.valid ∧
    Store.toList c.data = b.laidOver ((Store.toList piece).take (b.valid - b.head))

/-- Where the buffer `yields` room for `n` elements, `filler` is shown what is in it and its filling is put there and
    committed (`FilledBy`); where there is none, `filler` is not asked: nothing is committed, and any other would have
    made no difference. -/
def FillsAtOnce (b : Buffer σ) (n : Nat) (filler : σ → σ × Nat) : Prop :=
  ∃ step, (reserveWith n filler).run b = .ok step ∧
    if b.yields (b.reach? n) then
      ∃ region, step.value.granted = some region ∧ Store.toList region = b.vacancy n ∧
        b.FilledBy n (filler region).1 (filler region).2 step.value.committed step.state
    else
      step.value = ⟨none, .ok 0⟩ ∧ step.state = b.balked (b.reach? n) ∧
        ∀ other, (reserveWith n other).run b = .ok step

theorem filledBy_committed (h : b.Ordered) {n count : Nat} (hw : b.canWrite = true)
    (hlimit : b.head + n < positionLimit) {piece : σ} (hpiece : Store.size piece = n) (hcount : count ≤ n) :
    b.FilledBy n piece count (.ok count) ((b.filled n piece).committed count) where
  access := (access_committed _ _).trans (access_filled b n piece)
  reservation := reservation_committed _ _
  capacity := capacity_filled_committed h hw hlimit hcount
  committed _ :=
    ⟨rfl, head_filled_committed, valid_filled_committed hw, toList_filled_committed h hw hlimit hpiece hcount⟩
  overrun hover := absurd hcount (Nat.not_le.mpr hover)

theorem filledBy_abandoned (h : b.Ordered) {n count : Nat} (hlimit : b.head + n < positionLimit) {piece : σ}
    (hpiece : Store.size piece = n) (hcount : n < count) :
    b.FilledBy n piece count (.error (.leaseOverrun count n)) (b.filled n piece).abandoned where
  access := (access_trimmed _).trans (access_filled b n piece)
  reservation := reservation_trimmed _
  capacity := capacity_abandoned (h.filled hlimit piece)
  committed hfits := absurd hfits (Nat.not_le.mpr hcount)
  overrun _ := by
    refine ⟨rfl, ?_, ?_, toList_filled_abandoned h hpiece⟩
    · exact (head_trimmed _).trans (head_filled b n piece)
    · exact (valid_trimmed _).trans (valid_filled b n piece)

theorem fillsAtOnce (h : b.Ordered) (n : Nat) {filler : σ → σ × Nat}
    (hfiller : ∀ region, Store.size (filler region).1 = Store.size region) : b.FillsAtOnce n filler := by
  have hrun := run_reserveWith h n
  have hpiece : Store.size (filler (b.room n)).1 = n := (hfiller _).trans (size_room h n)
  unfold FillsAtOnce
  rw [← grants_eq_yields h]
  cases hg : b.grants n with
  | true =>
      obtain ⟨hw, hlimit, -⟩ := grants_iff.mp hg
      rw [hg] at hrun
      by_cases hcount : (filler (b.room n)).2 ≤ n
      · refine ⟨_, (hrun filler).trans ((if_pos rfl).trans (if_pos hcount)), b.room n, rfl, toList_room h n, ?_⟩
        exact filledBy_committed h hw hlimit hpiece hcount
      · refine ⟨_, (hrun filler).trans ((if_pos rfl).trans (if_neg hcount)), b.room n, rfl, toList_room h n, ?_⟩
        exact filledBy_abandoned h hlimit hpiece (Nat.not_le.mp hcount)
  | false =>
      rw [hg] at hrun
      have hdenied : ∀ other, (reserveWith n other).run b = .ok ⟨⟨none, .ok 0⟩, b.denied n, b.denyEvents n⟩ :=
        fun other => (hrun other).trans (if_neg Bool.false_ne_true)
      exact ⟨_, hdenied filler, rfl, denied_eq_balked h hg, hdenied⟩

end Buffer

/-! ## Runs -/

section Runs

variable {σ α : Type} [Store σ α] [LawfulStore σ] {entries : List (Entry σ α)} {first last : Buffer σ}

/-- **Filling in place agrees with writing.** Whatever was done to a new buffer, with whatever tickets, and over a store
    that `TakesLess`: room for `n` elements is granted exactly where there is a place to reach (`reach?`) and the store
    reaches it. To fill the front of it and `commit` that much then goes through, to `write` the same elements goes
    through, and both leave the same store, head, valid elements and open sides (`FillsLikeWriting`), wherever the room
    lies and whatever reservation there was before. Where nothing of it is filled or committed, head and valid elements
    are as they were, and the store ends with them (`KeepsUncommitted`). -/
theorem filling_agrees_with_writing (hless : Store.TakesLess σ) (hnew : first.New) (hrun : Run first entries last) :
    (∀ (n : Nat) (elements : σ), 0 < Store.size elements → Store.size elements ≤ n →
        last.FillsLikeWriting n elements) ∧
      ∀ n, last.KeepsUncommitted n := by
  have hordered := (hrun.neat hnew.neat).ordered
  constructor
  · intro n elements hpos hsize
    exact Buffer.fillsLikeWriting hordered hless hpos hsize
  · intro n
    exact Buffer.keepsUncommitted hordered n

/-- **Reserving, filling and committing at once.** Whatever was done to a new buffer, with whatever tickets and whatever
    reservation is still there, `reserveWith` does what `FillsAtOnce` says: if there is no place to reach, or the store
    does not reach it, `filler` is not asked and nothing is committed. Otherwise it is shown the valid elements from the
    head on and blanks behind them (`vacancy`). What it gives back is `laidOver` the valid elements; if it is to be
    committed, the head goes behind what is, and the store is cut off behind that or behind the valid elements; if too
    much is to be committed, that is the answer, head and number of valid elements stay, and the store is cut off behind
    them. No reservation is left, and since nothing comes between the reservation and its commit, neither a stale nor a
    missing reservation is ever the answer. -/
theorem fills_at_once (hnew : first.New) (hrun : Run first entries last) (n : Nat) (filler : σ → σ × Nat)
    (hfiller : ∀ region, Store.size (filler region).1 = Store.size region) : last.FillsAtOnce n filler :=
  Buffer.fillsAtOnce (hrun.neat hnew.neat).ordered n hfiller

end Runs

/-! ## A writer with a tail -/

/-- A writer whose reservation has a tail (`Buffer.overhanging`) reserves room for four, fills two of them and commits
    those two. It could have written them. -/
theorem filling_agrees_with_writing_overhanging :
    ∃ (first : Buffer SmallBytes) (entries : List (Entry SmallBytes UInt8))
        (reserved committed written : Step (Buffer SmallBytes) Event (Answer SmallBytes UInt8)),
      first.New ∧ Run first entries .overhanging ∧
        (Operation.reserve 4 ⟨#[5, 6]⟩).perform.run .overhanging = .ok reserved ∧
        reserved.value = .region (some ⟨#[0, 0, 0, 0]⟩) ∧
        (Operation.commit 2).perform.run reserved.state = .ok committed ∧ committed.value = .settled (.ok 2) ∧
        (Operation.write ⟨#[5, 6]⟩).perform.run .overhanging = .ok written ∧ written.value = .count 2 ∧
        written.state.Alike committed.state := by
  obtain ⟨first, entries, hnew, hrun, -, -⟩ := run_overhanging
  obtain ⟨hlike, -⟩ := filling_agrees_with_writing Store.growsTo_cells.takesInSteps.takesLess hnew hrun
  obtain ⟨reserved, hreserved, houtcome⟩ := hlike 4 ⟨#[5, 6]⟩ (by decide) (by decide)
  rw [if_pos (by decide)] at houtcome
  obtain ⟨region, committed, written, hregion, hblank, hcommit, hwrite, hall, hcount, halike⟩ := houtcome
  have hzeros : region = ⟨#[0, 0, 0, 0]⟩ := Store.ext_toList hblank
  subst hzeros
  exact ⟨first, entries, reserved, committed, written, hnew, hrun, hreserved, hregion, hcommit, hall, hwrite, hcount,
    halike⟩

/-- A writer that is `Buffer.overhanging` is given room for three, puts two elements there and commits them. -/
theorem fills_at_once_overhanging :
    ∃ (first : Buffer SmallBytes) (entries : List (Entry SmallBytes UInt8))
        (step : Step (Buffer SmallBytes) Event (Buffer.Filled SmallBytes)),
      first.New ∧ Run first entries .overhanging ∧
        (Buffer.reserveWith 3 fun region => (Store.overlayFront region ⟨#[7, 8]⟩, 2)).run .overhanging = .ok step ∧
        step.value.committed = .ok 2 ∧ step.state.head = 4 ∧ Store.toList step.state.data = [1, 2, 7, 8] ∧
        step.state.reservation = none := by
  obtain ⟨first, entries, hnew, hrun, -, -⟩ := run_overhanging
  obtain ⟨step, hstep, houtcome⟩ := fills_at_once hnew hrun 3
    (fun region => (Store.overlayFront region ⟨#[7, 8]⟩, 2)) fun region => Store.size_overlayFront region _
  rw [if_pos (by decide)] at houtcome
  obtain ⟨region, -, hregion, hfilled⟩ := houtcome
  have hblank : region = ⟨#[0, 0, 0]⟩ := Store.ext_toList hregion
  subst hblank
  obtain ⟨hanswer, hhead, -, hdata⟩ := hfilled.committed (by decide)
  exact ⟨first, entries, step, hnew, hrun, hstep, hanswer, hhead, hdata, hfilled.reservation⟩

end MemStream
