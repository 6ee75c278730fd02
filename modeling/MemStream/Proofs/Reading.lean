import MemStream.Proofs.Effect
import MemStream.Buffer.Transfer

/-!
# `MemStream.Proofs.Reading` — what reading and seeking come to

For every operation that moves the head without writing, one lemma says what its run gives and leaves. A read of `n`
elements gives `Buffer.upcoming n` and leaves the buffer moved behind them; a seek leaves it moved, or as it was, or
without its tail.

## Contents
- **Reads.** `run_peek`, `run_read`, `run_readOne`, `run_skipOne`.
- **Seeks.** `run_seekTo`, `run_seek`, `run_stepBack`.
- **Reads in a row.** `run_gather`: however the requests are chosen, what is gathered is a piece from the head on.
  `run_gatherAll_total`: what is gathered by requests up to a total is what one read of the total gives.
- **Closed sides.** Where the reading side is closed, nothing comes (`upcoming_of_not_canRead`) and nothing is gathered.
-/

namespace MemStream.Buffer

open StateAction

variable {σ α : Type} [Store σ α]

/-! ## Reads -/

/-- What a `read` of `n` elements gives. -/
def upcoming (b : Buffer σ) (n : Nat) : σ :=
  if b.canRead then Store.slice b.data b.head (min n b.available) else Store.empty

/-- What an advancing `read` of `n` elements leaves. -/
def consumed (b : Buffer σ) (n : Nat) : Buffer σ :=
  if 0 < Store.size (b.upcoming n) then b.moved (b.head + Store.size (b.upcoming n)) else b

variable {b : Buffer σ}

variable [LawfulStore σ]

/-- A `read` gives as much as is `available` and no more than asked for. -/
theorem size_upcoming (h : b.Ordered) (n : Nat) :
    Store.size (b.upcoming n) = if b.canRead then min n b.available else 0 := by
  unfold upcoming
  split
  · have havail := h.head_add_available
    have hvalid := h.valid_le
    unfold capacity at hvalid
    rw [Store.size_slice]; omega
  · exact Store.size_empty

/-- A `read` gives no more than is `available`. -/
theorem size_upcoming_le (h : b.Ordered) (n : Nat) : Store.size (b.upcoming n) ≤ b.available := by
  rw [size_upcoming h]
  split <;> omega

/-- What a `read` gives is a slice from the `head` on. -/
theorem upcoming_eq_slice (h : b.Ordered) (n : Nat) :
    b.upcoming n = Store.slice b.data b.head (Store.size (b.upcoming n)) := by
  have hsize := size_upcoming h n
  cases hr : b.canRead with
  | true =>
      rw [if_pos hr] at hsize
      rw [hsize]
      exact if_pos hr
  | false =>
      have hempty : b.upcoming n = Store.empty := if_neg (by simp [hr])
      rw [hempty]
      apply Store.ext_toList
      simp

omit [LawfulStore σ] in
/-- To `peek` gives `upcoming` and changes nothing. -/
theorem run_peek (h : b.Ordered) (n : Nat) : (peek n).run b = .ok ⟨b.upcoming n, b, []⟩ := by
  have havail := h.head_add_available
  have hvalid := h.valid_le
  unfold peek upcoming
  rw [run_look_bind, run_ite]
  split
  · exact run_piece (by omega) h.capacity_lt
  · exact run_pure _ _

/-- To `read` gives `upcoming`; with `advance`, the buffer is left `consumed`, its head behind what was given. -/
theorem run_read (h : b.Ordered) (n : Nat) (advance : Bool) :
    (read n advance).run b = .ok ⟨b.upcoming n, if advance then b.consumed n else b, []⟩ := by
  unfold read consumed
  rw [run_bind_of_silent (run_peek h n), run_ite]
  by_cases hadv : advance = true ∧ 0 < Store.size (b.upcoming n)
  · -- what is given ends with the valid elements at the latest, so the head may go behind it
    have hstop : b.head + Store.size (b.upcoming n) ≤ b.valid := by
      have h1 := size_upcoming_le h n
      have h2 := h.head_add_available
      omega
    have hvalid := h.valid_le
    have hlimit := h.capacity_lt
    have hmove : b.head + Store.size (b.upcoming n) ≤ if b.canWrite then b.capacity else b.valid := by
      split <;> omega
    rw [if_pos hadv, if_pos hadv.1, if_pos hadv.2, run_look_bind,
      addPosition_of_lt (by omega), run_ensure_ok_bind, run_bind_of_silent (run_moveHead_moved h hmove)]
    rfl
  · rw [if_neg hadv]
    have hstay : (if advance = true then
        if 0 < Store.size (b.upcoming n) then b.moved (b.head + Store.size (b.upcoming n)) else b
        else b) = b := by
      split
      · next ha => rw [if_neg fun hs => hadv ⟨ha, hs⟩]
      · rfl
    rw [hstay]
    rfl

/-- An advancing `read` leaves the buffer `Ordered`. -/
theorem Ordered.consumed (h : b.Ordered) (n : Nat) : (b.consumed n).Ordered := by
  unfold Buffer.consumed
  split
  · apply h.moved
    have h1 := size_upcoming_le h n
    have h2 := h.head_add_available
    have h3 := h.valid_le
    split <;> omega
  · exact h

theorem run_readOne (h : b.Ordered) (advance : Bool) :
    (readOne advance).run b =
      .ok ⟨Store.head? (b.upcoming 1), if advance then b.consumed 1 else b, []⟩ := by
  unfold readOne
  rw [run_bind_of_silent (run_read h 1 advance)]
  rfl

theorem run_peekOne (h : b.Ordered) :
    (peekOne (σ := σ)).run b = .ok ⟨Store.head? (b.upcoming 1), b, []⟩ :=
  run_readOne h false

/-- To pass by is an advancing `read` of one element, and a look at the first of the next. -/
theorem run_skipOne (h : b.Ordered) :
    (skipOne (σ := σ)).run b = .ok ⟨Store.head? ((b.consumed 1).upcoming 1), b.consumed 1, []⟩ := by
  unfold skipOne
  rw [run_bind_of_silent (run_readOne h true)]
  exact run_peekOne (h.consumed 1)

/-! ## Seeks -/

/-- The report that no direction admits the position, `Notice.seekRejected`. -/
def seekEvents (b : Buffer σ) (p : Nat) (direction : Directions) : List Event :=
  [⟨b.label, .seekRejected p direction b.valid⟩]

omit [LawfulStore σ] in
theorem run_rejectSeek (p : Nat) (direction : Directions) (b : Buffer σ) :
    (rejectSeek p direction).run b = .ok ⟨none, b, b.seekEvents p direction⟩ := rfl

/-- In `seekTo`, the reading rule comes first; the writing rule leaves the buffer `trimmed` even where the store then
    refuses. -/
theorem run_seekTo (h : b.Ordered) {p : Nat} (hp : p < positionLimit) (direction : Directions) :
    (seekTo p direction).run b =
      if direction.reads ∧ b.canRead ∧ p ≤ b.valid then
        .ok ⟨some p, b.moved p, []⟩
      else if direction.writes ∧ b.canWrite then
        if b.trimmed.admits p then
          .ok ⟨some p, (b.extended p).moved p, b.trimEvents ++ b.trimmed.growEvents p⟩
        else
          .ok ⟨none, b.trimmed, b.trimEvents ++ (b.trimmed.growEvents p ++ b.trimmed.seekEvents p direction)⟩
      else
        .ok ⟨none, b, b.seekEvents p direction⟩ := by
  unfold seekTo
  rw [run_look_bind, run_ite, run_ite]
  split
  · next hread =>
      have hvalid := h.valid_le
      rw [run_bind_of_silent (run_moveHead_moved h (by split <;> omega))]
      rfl
  split
  · next hwrite =>
      rw [run_dropTail_bind, run_growTo_bind, run_ite]
      split
      · have hmove : p ≤ if (b.extended p).canWrite then (b.extended p).capacity else (b.extended p).valid := by
          rw [canWrite_extended, if_pos hwrite.2, capacity_extended p h]
          omega
        rw [grown_trimmed, run_bind_of_silent (run_moveHead_moved (h.extended hp) hmove)]
        simp [Except.map]
      · rw [run_rejectSeek]
        rfl
  · rfl

omit [LawfulStore σ] in
/-- A `seek` is a `seekTo` the position of its target, or the report that there is none. -/
theorem run_seek (target : Target) (direction : Directions) (b : Buffer σ) :
    (seek target direction).run b =
      match target.position? b.cursor with
      | some p => (seekTo p direction).run b
      | none => .ok ⟨none, b, [⟨b.label, .seekUnresolvable target⟩]⟩ := by
  unfold seek
  rw [run_look_bind]
  cases target.position? b.cursor <;> rfl

omit [LawfulStore σ] in
/-- The place before the head is a `position?` unless the head is at the start. -/
theorem position?_current_neg_one (h : b.Ordered) :
    (Target.current (-1)).position? b.cursor = if b.head = 0 then none else some (b.head - 1) := by
  have hhead := h.head_le
  have hvalid := h.valid_le
  have hlimit := h.capacity_lt
  show (if 0 ≤ (b.head : Int) + -1 ∧ (b.head : Int) + -1 < positionLimit then
    some ((b.head : Int) + -1).toNat else none) = _
  by_cases h0 : b.head = 0
  · rw [if_pos h0, if_neg (by omega)]
  · rw [if_neg h0, if_pos (by omega)]
    congr 1
    omega

/-- With `stepBack`, the head goes back wherever there is an element before it that can be read. -/
theorem run_stepBack (h : b.Ordered) :
    (stepBack (σ := σ)).run b =
      if b.head = 0 then
        .ok ⟨none, b, [⟨b.label, .seekUnresolvable (.current (-1))⟩]⟩
      else if b.canRead then
        .ok ⟨Store.head? ((b.moved (b.head - 1)).upcoming 1), b.moved (b.head - 1), []⟩
      else
        .ok ⟨none, b, b.seekEvents (b.head - 1) .reading⟩ := by
  have hhead := h.head_le
  have hvalid := h.valid_le
  have hlimit := h.capacity_lt
  have hseek : (seek (.current (-1)) .reading).run b =
      match (if b.head = 0 then none else some (b.head - 1) : Option Nat) with
      | some p => (seekTo p .reading).run b
      | none => .ok ⟨none, b, [⟨b.label, .seekUnresolvable (.current (-1))⟩]⟩ := by
    rw [run_seek, position?_current_neg_one h]
  unfold stepBack
  by_cases h0 : b.head = 0
  · rw [if_pos h0] at hseek ⊢
    rw [run_bind_of_run hseek]
    rfl
  · rw [if_neg h0] at hseek ⊢
    simp only at hseek
    rw [run_seekTo h (by omega)] at hseek
    by_cases hr : b.canRead = true
    · rw [if_pos ⟨rfl, hr, by omega⟩] at hseek
      rw [if_pos hr, run_bind_of_silent hseek]
      exact run_peekOne (h.moved (by split <;> omega))
    · rw [if_neg fun hc => hr hc.2.1, if_neg fun hc => Bool.noConfusion hc.1] at hseek
      rw [if_neg hr, run_bind_of_run hseek]
      rfl

/-! ## Reads in a row -/

/-- The head moved on by `k` elements in `n` changes, what a row of `n` reads leaves. -/
def passed (b : Buffer σ) (k n : Nat) : Buffer σ :=
  { b with cursor := ⟨b.head + k, b.valid⟩, changes := b.changes + n }

omit [LawfulStore σ] [Store σ α] in
theorem passed_zero (b : Buffer σ) : b.passed 0 0 = b := rfl

omit [LawfulStore σ] [Store σ α] in
/-- Two rows of reads, each `passed`, come to one. -/
theorem passed_passed (b : Buffer σ) (k n k' n' : Nat) :
    (b.passed k n).passed k' n' = b.passed (k + k') (n + n') := by
  simp [passed, head, valid, Nat.add_assoc]

/-- A read that gives something leaves what it gives `passed`, in one change. -/
theorem consumed_eq_passed (h : b.Ordered) {n : Nat} (hn : 0 < Store.size (b.upcoming n)) :
    b.consumed n = b.passed (Store.size (b.upcoming n)) 1 := by
  have hstop : b.head + Store.size (b.upcoming n) ≤ b.valid := by
    have h1 := size_upcoming_le h n
    have h2 := h.head_add_available
    omega
  unfold consumed
  rw [if_pos hn, moved_eq_of_le hstop]
  rfl

omit [LawfulStore σ] in
/-- A read that gives nothing leaves everything as it is. -/
theorem consumed_eq_self {n : Nat} (hn : ¬ 0 < Store.size (b.upcoming n)) : b.consumed n = b :=
  if_neg hn

omit [LawfulStore σ] in
/-- However much is `upcoming`, the head ends up behind it. -/
theorem head_consumed (b : Buffer σ) (n : Nat) : (b.consumed n).head = b.head + Store.size (b.upcoming n) := by
  unfold consumed
  split
  · rfl
  · omega

omit [LawfulStore σ] in
/-- As long as no more than `available` is passed by, the buffer stays `Ordered`. -/
theorem Ordered.passed (h : b.Ordered) {k : Nat} (hk : k ≤ b.available) (n : Nat) : (b.passed k n).Ordered := by
  have havail := h.head_add_available
  refine ⟨?_, h.valid_le, h.capacity_lt⟩
  show b.head + k ≤ b.valid
  omega

omit [Store σ α] [LawfulStore σ] in
/-- What is passed by is `available` no longer. -/
theorem available_passed (b : Buffer σ) (k n : Nat) : (b.passed k n).available = b.available - k := by
  show b.valid - (b.head + k) = b.valid - b.head - k
  omega

/-- However `request` is chosen, what is gathered is a slice from the head on, and the buffer is left `passed` behind
    it. Something is gathered unless nothing is asked for or nothing can be had, and every `read` on the way gathered
    something. -/
theorem run_gather (request : Nat → Nat) (h : b.Ordered) (rounds : Nat) (gathered : σ) :
    ∃ k n, (gather request rounds gathered).run b =
        .ok ⟨Store.append gathered (Store.slice b.data b.head k), b.passed k n, []⟩ ∧
      k ≤ b.available ∧ n ≤ k ∧ (n = 0 ↔ k = 0) ∧
      (0 < k ↔ 0 < rounds ∧ 0 < request (Store.size gathered) ∧ b.canRead ∧ 0 < b.available) := by
  -- the number of rounds left carries the induction; each read that gives something starts it over on what is left
  induction rounds generalizing b gathered with
  | zero =>
      refine ⟨0, 0, ?_, Nat.zero_le _, Nat.le_refl _, Iff.rfl, by simp⟩
      rw [Store.append_eq_self (by simp), passed_zero]
      rfl
  | succ rounds ih =>
      have hstay : Store.append gathered (Store.slice b.data b.head 0) = gathered :=
        Store.append_eq_self (by simp)
      unfold gather
      rw [run_ite]
      by_cases hreq : request (Store.size gathered) = 0
      · -- nothing more is asked for
        rw [if_pos hreq]
        refine ⟨0, 0, ?_, Nat.zero_le _, Nat.le_refl _, Iff.rfl, by omega⟩
        rw [hstay, passed_zero]
        rfl
      rw [if_neg hreq, run_bind_of_silent (run_read h (request (Store.size gathered)) true), run_ite]
      have hsize := size_upcoming h (request (Store.size gathered))
      by_cases hzero : Store.size (b.upcoming (request (Store.size gathered))) = 0
      · -- nothing more is to be had
        rw [if_pos hzero, if_pos rfl]
        refine ⟨0, 0, ?_, Nat.zero_le _, Nat.le_refl _, Iff.rfl, ?_⟩
        · rw [hstay]
          unfold consumed
          rw [hzero]
          rfl
        · constructor
          · intro hk
            exact absurd hk (Nat.lt_irrefl 0)
          · rintro ⟨-, -, hr, havail⟩
            rw [hzero, if_pos hr] at hsize
            omega
      · -- a piece was given, and what is gathered later lies right behind it
        have hpos : 0 < Store.size (b.upcoming (request (Store.size gathered))) := Nat.pos_of_ne_zero hzero
        have hle := size_upcoming_le h (request (Store.size gathered))
        have hup := upcoming_eq_slice h (request (Store.size gathered))
        have hr : b.canRead = true := by
          cases hc : b.canRead with
          | true => rfl
          | false => rw [hc] at hsize; exact absurd hsize hzero
        rw [if_neg hzero, if_pos rfl, consumed_eq_passed h hpos]
        generalize b.upcoming (request (Store.size gathered)) = elements at *
        obtain ⟨k, n, hrun, hk, hn, -, -⟩ := ih (h.passed hle 1) (Store.append gathered elements)
        rw [available_passed] at hk
        refine ⟨Store.size elements + k, 1 + n, ?_, by omega, by omega, by omega, ?_⟩
        · rw [hrun, passed_passed, Store.append_assoc, ← Store.append_slice_slice, ← hup]
          rfl
        · constructor
          · intro _
            exact ⟨Nat.succ_pos _, Nat.pos_of_ne_zero hreq, hr, by omega⟩
          · intro _
            omega

/-- What `gatherAll` comes to is a slice from the head on, by `run_gather` with rounds enough. -/
theorem run_gatherAll (request : Nat → Nat) (h : b.Ordered) :
    ∃ k n, (gatherAll request).run b = .ok ⟨Store.slice b.data b.head k, b.passed k n, []⟩ ∧
      k ≤ b.available ∧ n ≤ k ∧ (n = 0 ↔ k = 0) ∧ (0 < k ↔ 0 < request 0 ∧ b.canRead ∧ 0 < b.available) := by
  obtain ⟨k, n, hrun, hk, hle, hn, hpos⟩ := run_gather request h (b.available + 1) Store.empty
  refine ⟨k, n, ?_, hk, hle, hn, ?_⟩
  · unfold gatherAll
    rw [run_look_bind, hrun, Store.empty_append]
  · rw [Store.size_empty] at hpos
    rw [hpos]
    exact ⟨fun hc => hc.2, fun hc => ⟨Nat.succ_pos _, hc⟩⟩

/-- The number of elements that a `request` comes to which goes on up to `total` and not beyond it. -/
theorem run_gather_total (request : Nat → Nat) {total : Nat} (hasks : ∀ m, m < total → 0 < request m) (h : b.Ordered)
    (hr : b.canRead = true) {rounds : Nat} (hrounds : b.available < rounds) (gathered : σ)
    (hsize : Store.size gathered ≤ total)
    (hstops : ∀ m, m ≤ total → m + min (request m) (Store.size gathered + b.available - m) ≤ total) :
    ∃ k n, (gather request rounds gathered).run b =
        .ok ⟨Store.append gathered (Store.slice b.data b.head k), b.passed k n, []⟩ ∧
      k = min (total - Store.size gathered) b.available ∧ (n = 0 ↔ k = 0) := by
  -- what is gathered and what is left to gather stay the same in sum, so the bound on the requests carries over
  induction rounds generalizing b gathered with
  | zero => exact absurd hrounds (Nat.not_lt_zero _)
  | succ rounds ih =>
      have hstay : Store.append gathered (Store.slice b.data b.head 0) = gathered :=
        Store.append_eq_self (by simp)
      have hsum := hstops (Store.size gathered) hsize
      unfold gather
      rw [run_ite]
      by_cases hreq : request (Store.size gathered) = 0
      · -- nothing more is asked for, so the total is reached
        have hfull : ¬ Store.size gathered < total := fun hlt => Nat.ne_of_gt (hasks _ hlt) hreq
        rw [if_pos hreq]
        refine ⟨0, 0, ?_, by omega, Iff.rfl⟩
        rw [hstay, passed_zero]
        rfl
      rw [if_neg hreq, run_bind_of_silent (run_read h (request (Store.size gathered)) true), run_ite]
      have hgives := size_upcoming h (request (Store.size gathered))
      rw [if_pos hr] at hgives
      by_cases hzero : Store.size (b.upcoming (request (Store.size gathered))) = 0
      · -- nothing more is to be had
        rw [if_pos hzero, if_pos rfl, consumed_eq_self (by omega)]
        refine ⟨0, 0, ?_, by omega, Iff.rfl⟩
        rw [hstay, passed_zero]
        rfl
      · have hpos : 0 < Store.size (b.upcoming (request (Store.size gathered))) := Nat.pos_of_ne_zero hzero
        have hle := size_upcoming_le h (request (Store.size gathered))
        have hup := upcoming_eq_slice h (request (Store.size gathered))
        rw [if_neg hzero, if_pos rfl, consumed_eq_passed h hpos]
        generalize b.upcoming (request (Store.size gathered)) = elements at *
        have hleft := available_passed b (Store.size elements) 1
        have hmore := Store.size_append gathered elements
        obtain ⟨k, n, hrun, hk, -⟩ := ih (h.passed hle 1) hr (by omega) (Store.append gathered elements) (by omega) (by
          intro m hm
          have := hstops m hm
          omega)
        refine ⟨Store.size elements + k, 1 + n, ?_, by omega, by omega⟩
        rw [hrun, passed_passed, Store.append_assoc, ← Store.append_slice_slice, ← hup]
        rfl

/-- A `request` that goes on up to `total` and not beyond it comes to the same elements as one `read` of so many. -/
theorem run_gatherAll_total (request : Nat → Nat) {total : Nat} (hasks : ∀ m, m < total → 0 < request m)
    (h : b.Ordered) (hstops : ∀ m, m ≤ total → m + min (request m) (b.available - m) ≤ total) :
    ∃ n, (gatherAll request).run b =
        .ok ⟨b.upcoming total, b.passed (Store.size (b.upcoming total)) n, []⟩ ∧
      (n = 0 ↔ Store.size (b.upcoming total) = 0) := by
  have hsize := size_upcoming h total
  cases hr : b.canRead with
  | true =>
      rw [hr, if_pos rfl] at hsize
      obtain ⟨k, n, hrun, hk, hn⟩ := run_gather_total request hasks h hr (Nat.lt_succ_self b.available) Store.empty
        (by rw [Store.size_empty]; omega) (by rw [Store.size_empty, Nat.zero_add]; exact hstops)
      rw [Store.size_empty, Nat.sub_zero, ← hsize] at hk
      subst hk
      refine ⟨n, ?_, hn⟩
      unfold gatherAll
      rw [run_look_bind, hrun, Store.empty_append, ← upcoming_eq_slice h]
  | false =>
      -- where nothing can be read, nothing is gathered, whatever is asked for
      rw [hr, if_neg Bool.false_ne_true] at hsize
      obtain ⟨k, n, hrun, -, -, hn, hpos⟩ := run_gatherAll request h
      have hk : k = 0 := Nat.eq_zero_of_not_pos fun hlt => by
        have hopen := (hpos.mp hlt).2.1
        rw [hr] at hopen
        cases hopen
      subst hk
      have hempty := upcoming_eq_slice h total
      rw [hsize] at hempty ⊢
      exact ⟨n, by rw [hrun, hempty], hn⟩

/-! ## Reading where nothing can be read -/

omit [LawfulStore σ] in
/-- Where nothing can be read, what is `upcoming` is `Store.empty`. -/
theorem upcoming_of_not_canRead (hr : b.canRead = false) (k : Nat) : b.upcoming k = Store.empty :=
  if_neg (hr ▸ Bool.false_ne_true)

theorem consumed_of_not_canRead (hr : b.canRead = false) (k : Nat) : b.consumed k = b := by
  apply consumed_eq_self
  rw [upcoming_of_not_canRead hr, Store.size_empty]
  exact Nat.lt_irrefl 0

/-- Nothing is gathered by `gatherAll` where nothing can be read. -/
theorem run_gatherAll_of_not_canRead (h : b.Ordered) (hr : b.canRead = false) (request : Nat → Nat) :
    (gatherAll request).run b = .ok ⟨Store.empty, b, []⟩ := by
  obtain ⟨k, changes, hrun, -, -, hchanges, hpos⟩ := run_gatherAll request h
  have hk : k = 0 := Nat.eq_zero_of_not_pos fun hlt => by
    have hopen := (hpos.mp hlt).2.1
    rw [hr] at hopen
    cases hopen
  have hnothing : Store.slice b.data b.head 0 = Store.empty := by
    apply Store.ext_toList
    rw [LawfulStore.toList_slice, List.take_zero, Store.toList_empty]
  rw [hrun, hk, hchanges.mpr hk, hnothing, passed_zero]

end MemStream.Buffer
