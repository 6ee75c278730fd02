import MemStream.Proofs.Counting
import MemStream.Store.Tally

/-!
# `MemStream.Proofs.Draining` — reading to the end

Reading to the end is a loop: it reads a chunk at a time and stops at the first read that gives nothing. Nothing in the
loop says how often it goes round. It ends because every read that gives something leaves fewer elements before the
head, and what it has gathered by then is what one read of all of them would have given. A buffer that cannot be read
gives nothing at once, however many elements lie before its head.

## Contents
- **The loop.** `Drains`: the chunks that come one after the other until none comes, with no bound on their number;
  `Drains.unique`.
- **Rounds.** `run_gather_of_drains`: any number of rounds above that of the chunks is enough.
- **What comes.** `drains_content` where the buffer can be read, `drains_nothing` where it cannot.
- **The end.** `Buffer.remainder` and `Buffer.drained`, what the loop gives and leaves; `alike_drained` for one read.
- **Runs.** `read_to_end_complete`.
-/

namespace MemStream

open StateAction

namespace Buffer

variable {σ α : Type} [Store σ α] {b c : Buffer σ} {pieces : List σ}

/-! ## The loop -/

/-- To `read` chunk after chunk, until a read gives nothing, takes a buffer from one state to another and gives
    pieces. -/
inductive Drains : Buffer σ → List σ → Buffer σ → Prop where
  | stop {b c : Buffer σ} {elements : σ} :
      (read chunkSize true).run b = .ok ⟨elements, c, []⟩ → Store.size elements = 0 → Drains b [] c
  | next {b m c : Buffer σ} {elements : σ} {pieces : List σ} :
      (read chunkSize true).run b = .ok ⟨elements, m, []⟩ → Store.size elements ≠ 0 → Drains m pieces c →
      Drains b (elements :: pieces) c

/-- The loop of `Drains` leaves nothing open: there is one way it can go. -/
theorem Drains.unique (h : Drains b pieces c) {others : List σ} {d : Buffer σ} (h' : Drains b others d) :
    others = pieces ∧ d = c := by
  induction h generalizing others with
  | stop hrun hzero =>
      cases h' with
      | stop hrun' _ =>
          cases hrun.symm.trans hrun'
          exact ⟨rfl, rfl⟩
      | next hrun' hsome _ =>
          cases hrun.symm.trans hrun'
          exact absurd hzero hsome
  | next hrun hsome _ ih =>
      cases h' with
      | stop hrun' hzero =>
          cases hrun.symm.trans hrun'
          exact absurd hzero hsome
      | next hrun' _ hrest =>
          cases hrun.symm.trans hrun'
          obtain ⟨rfl, rfl⟩ := ih hrest
          exact ⟨rfl, rfl⟩

/-! ## Rounds -/

/-- One piece after the other, by `Store.append`. -/
def joined (gathered : σ) (pieces : List σ) : σ :=
  pieces.foldl Store.append gathered

/-- What is `joined` has the elements of all its pieces in order. -/
theorem toList_joined [LawfulStore σ] (gathered : σ) (pieces : List σ) :
    Store.toList (joined gathered pieces) = Store.toList gathered ++ pieces.flatMap Store.toList := by
  unfold joined
  induction pieces generalizing gathered with
  | nil => simp
  | cons elements pieces ih =>
      rw [List.foldl_cons, ih, LawfulStore.toList_append, List.flatMap_cons, List.append_assoc]

/-- Any number of rounds that is enough for the pieces and the empty read behind them lets `gather` come to what
    `Drains` says. -/
theorem run_gather_of_drains (h : Drains b pieces c) {rounds : Nat} (hrounds : pieces.length < rounds) (gathered : σ) :
    (gather (fun _ => chunkSize) rounds gathered).run b = .ok ⟨joined gathered pieces, c, []⟩ := by
  have hasks : ¬ chunkSize = 0 := by decide
  -- each round reads the next piece, and there is one left for the read that gives nothing
  induction h generalizing rounds gathered with
  | stop hrun hzero =>
      obtain ⟨rounds, rfl⟩ := Nat.exists_eq_succ_of_ne_zero (Nat.ne_of_gt hrounds)
      unfold gather
      rw [run_ite, if_neg hasks, run_bind_of_silent hrun, run_ite, if_pos hzero]
      rfl
  | next hrun hsome _ ih =>
      obtain ⟨rounds, rfl⟩ := Nat.exists_eq_succ_of_ne_zero (Nat.ne_of_gt (Nat.zero_lt_of_lt hrounds))
      unfold gather
      rw [run_ite, if_neg hasks, run_bind_of_silent hrun, run_ite, if_neg hsome]
      exact ih (Nat.lt_of_succ_lt_succ hrounds) _

/-- The rounds of `readToEnd` are enough if there are no more pieces than elements `available`. -/
theorem run_readToEnd_of_drains (h : Drains b pieces c) (hpieces : pieces.length ≤ b.available) :
    readToEnd.run b = .ok ⟨joined Store.empty pieces, c, []⟩ := by
  unfold readToEnd gatherAll
  rw [run_look_bind]
  exact run_gather_of_drains h (Nat.lt_succ_of_le hpieces) Store.empty

/-! ## What comes -/

variable [LawfulStore σ]

/-- Where nothing is before the head, or it cannot be read, the first `read` ends the loop. -/
theorem drains_nothing (h : b.Ordered) (hnone : b.canRead = true → b.available = 0) : Drains b [] b := by
  have hzero : Store.size (b.upcoming chunkSize) = 0 := by
    rw [size_upcoming h]
    split
    · next hr => rw [hnone hr, Nat.min_zero]
    · rfl
  have hrun := run_read h chunkSize true
  rw [if_pos rfl, consumed_eq_self (by omega)] at hrun
  exact .stop hrun hzero

/-- The number of chunks of `chunkSize` that elements come in, of which the last need not be full. -/
def chunks (count : Nat) : Nat :=
  (count + 255) / 256

/-- An open reader `Drains` into as many pieces as its elements have `chunks`, by induction on what is `available`. -/
theorem drains_content (h : b.Ordered) (hr : b.canRead = true) :
    ∃ pieces : List σ, Drains b pieces (b.passed b.available (chunks b.available)) ∧
      pieces.length = chunks b.available ∧
      pieces.flatMap Store.toList = Store.toList (Store.slice b.data b.head b.available) := by
  generalize havailable : b.available = count
  -- every chunk leaves fewer elements before the head
  induction count using Nat.strongRecOn generalizing b with
  | ind count ih =>
      by_cases hzero : count = 0
      · subst hzero
        refine ⟨[], drains_nothing h fun _ => havailable, rfl, ?_⟩
        rw [LawfulStore.toList_slice, List.take_zero, List.flatMap_nil]
      · have hsize := size_upcoming h chunkSize
        rw [if_pos hr, havailable] at hsize
        have hsome : 0 < Store.size (b.upcoming chunkSize) := by
          rw [hsize]
          unfold chunkSize
          omega
        have hle := size_upcoming_le h chunkSize
        have hslice := upcoming_eq_slice h chunkSize
        have hrun := run_read h chunkSize true
        rw [if_pos rfl, consumed_eq_passed h hsome] at hrun
        generalize b.upcoming chunkSize = elements at *
        have hleft := available_passed b (Store.size elements) 1
        rw [havailable] at hleft hle
        obtain ⟨pieces, hdrains, hlength, hcontent⟩ :=
          ih (count - Store.size elements) (by omega) (h.passed (havailable ▸ hle) 1) hr hleft
        have hchunks : 1 + chunks (count - Store.size elements) = chunks count := by
          unfold chunks
          unfold chunkSize at hsize
          omega
        rw [passed_passed, hchunks, Nat.add_sub_cancel' hle] at hdrains
        refine ⟨elements :: pieces, .next hrun (Nat.ne_of_gt hsome) hdrains, ?_, ?_⟩
        · rw [List.length_cons, hlength, ← hchunks, Nat.add_comm]
        · calc
            (elements :: pieces).flatMap Store.toList
                = Store.toList elements ++
                    Store.toList (Store.slice b.data (b.head + Store.size elements) (count - Store.size elements)) := by
                  rw [List.flatMap_cons, hcontent]
                  rfl
            _ = Store.toList (Store.append (Store.slice b.data b.head (Store.size elements))
                    (Store.slice b.data (b.head + Store.size elements) (count - Store.size elements))) := by
                  rw [LawfulStore.toList_append, ← hslice]
            _ = Store.toList (Store.slice b.data b.head count) := by
                  rw [Store.append_slice_slice, Nat.add_sub_cancel' hle]

/-- There are not more `chunks` than elements in them. -/
theorem chunks_le (count : Nat) : chunks count ≤ count := by
  unfold chunks
  omega

/-! ## The end -/

/-- All that is left to read: what is `upcoming` in a read of all that is `available`. -/
def remainder (b : Buffer σ) : σ :=
  b.upcoming b.available

/-- What `readToEnd` leaves: the head behind the `remainder`, after one change for each chunk of it. -/
def drained (b : Buffer σ) : Buffer σ :=
  b.passed (Store.size b.remainder) (chunks (Store.size b.remainder))

theorem size_remainder (h : b.Ordered) : Store.size b.remainder = if b.canRead then b.available else 0 := by
  unfold remainder
  rw [size_upcoming h, Nat.min_self]

/-- A buffer that can be read has its `content` left from the head on. -/
theorem toList_remainder (h : b.Ordered) (hr : b.canRead = true) :
    Store.toList b.remainder = b.content.drop b.head := by
  unfold remainder upcoming content
  rw [if_pos hr, Nat.min_self, LawfulStore.toList_slice, ← h.head_add_available, List.drop_take,
    Nat.add_sub_cancel_left]

omit [LawfulStore σ] in
/-- Where nothing can be read, the `remainder` is empty. -/
theorem remainder_eq_empty (hr : b.canRead = false) : b.remainder = Store.empty :=
  upcoming_of_not_canRead hr b.available

theorem drained_eq_passed (h : b.Ordered) (hr : b.canRead = true) :
    b.drained = b.passed b.available (chunks b.available) := by
  unfold drained
  rw [size_remainder h, if_pos hr]

theorem drained_eq_self (hr : b.canRead = false) : b.drained = b := by
  unfold drained
  rw [remainder_eq_empty hr, Store.size_empty]
  exact passed_zero b

/-- The loop of `Drains` ends with the `remainder` in as many pieces as it has `chunks`. -/
theorem drains_drained (h : b.Ordered) :
    ∃ pieces : List σ, Drains b pieces b.drained ∧ pieces.length = chunks (Store.size b.remainder) ∧
      joined Store.empty pieces = b.remainder := by
  cases hr : b.canRead with
  | true =>
      obtain ⟨pieces, hdrains, hlength, hcontent⟩ := drains_content h hr
      rw [drained_eq_passed h hr, size_remainder h, if_pos hr]
      refine ⟨pieces, hdrains, hlength, ?_⟩
      apply Store.ext_toList
      rw [toList_joined, Store.toList_empty, List.nil_append, hcontent]
      unfold remainder upcoming
      rw [if_pos hr, Nat.min_self]
  | false =>
      rw [drained_eq_self hr, remainder_eq_empty hr, Store.size_empty]
      exact ⟨[], drains_nothing h fun hopen => absurd hopen (hr ▸ Bool.false_ne_true), rfl, rfl⟩

/-- One `read` of all that is left leaves the same to be seen (`Alike`). -/
theorem alike_drained (h : b.Ordered) : (b.consumed b.available).Alike b.drained := by
  have hsize : Store.size (b.upcoming b.available) = Store.size b.remainder := rfl
  by_cases hsome : 0 < Store.size (b.upcoming b.available)
  · rw [consumed_eq_passed h hsome]
    exact ⟨rfl, rfl, rfl, rfl, rfl⟩
  · rw [consumed_eq_self hsome]
    unfold drained
    rw [← hsize, Nat.eq_zero_of_not_pos hsome]
    exact .refl b

end Buffer

/-! ## Runs -/

section Runs

variable {σ α : Type} [Store σ α] [LawfulStore σ] {entries : List (Entry σ α)} {first last : Buffer σ}

/-- **Reading to the end is complete and comes to an end.** Whatever was done to a new buffer, with whatever tickets and
    however often the epochs have come round:
    - to `read` chunk after chunk comes to a read that gives nothing, in one way only (`Drains`); `readToEnd` gives the
      pieces put together and leaves what the loop leaves, and so would any number of rounds above theirs;
    - a buffer that can be read gives its `content` from the head on in order, in chunks of 256 (`chunkSize`) of which
      the last may be shorter; the head is then at the end, and the epoch has moved on by one for each chunk, or come
      round;
    - a buffer that cannot be read gives nothing and is left as it is, whatever lies before its head;
    - store, valid elements, capacity and open sides are as before, and one `read` of as many elements as are
      `available` gives the same and leaves the same to be seen. -/
theorem read_to_end_complete (hnew : first.New) (hrun : Run first entries last) :
    ∃ (pieces : List σ) (elements : σ) (after : Buffer σ),
      (Operation.readToEnd : Operation σ α).perform.run last = .ok ⟨.elements elements, after, []⟩ ∧
        (last.Drains pieces after ∧ (∀ others other, last.Drains others other → others = pieces ∧ other = after) ∧
          Store.toList elements = pieces.flatMap Store.toList ∧
          ∀ rounds, pieces.length < rounds →
            (Buffer.gather (fun _ => Buffer.chunkSize) rounds Store.empty).run last = .ok ⟨elements, after, []⟩) ∧
        (last.canRead = true →
          Store.toList elements = last.content.drop last.head ∧ pieces.length = (last.available + 255) / 256 ∧
            after.head = last.valid ∧ after.changes = last.changes + (last.available + 255) / 256 ∧
            after.epoch = last.epoch + UInt64.ofNat ((last.available + 255) / 256)) ∧
        (last.canRead = false → Store.toList elements = [] ∧ pieces = [] ∧ after = last) ∧
        (after.data = last.data ∧ after.valid = last.valid ∧ after.capacity = last.capacity ∧
          after.access = last.access) ∧
        ∃ once, (Operation.read last.available true : Operation σ α).perform.run last = .ok once ∧
          once.value = .taken elements ∧ once.state.Alike after := by
  have h := (hrun.neat hnew.neat).ordered
  obtain ⟨pieces, hdrains, hlength, hjoined⟩ := Buffer.drains_drained h
  have hrounds : ∀ rounds, pieces.length < rounds →
      (Buffer.gather (fun _ => Buffer.chunkSize) rounds Store.empty).run last =
        .ok ⟨last.remainder, last.drained, []⟩ := by
    intro rounds hmore
    rw [Buffer.run_gather_of_drains hdrains hmore, hjoined]
  have hpieces : pieces.length ≤ last.available := by
    rw [hlength]
    exact Nat.le_trans (Buffer.chunks_le _) (Buffer.size_upcoming_le h _)
  have hend : Buffer.readToEnd.run last = .ok ⟨last.remainder, last.drained, []⟩ := by
    rw [Buffer.run_readToEnd_of_drains hdrains hpieces, hjoined]
  refine ⟨pieces, last.remainder, last.drained, Buffer.run_answer hend Answer.elements,
    ⟨hdrains, fun others other h' => hdrains.unique h', ?_, hrounds⟩, ?_, ?_, ⟨rfl, rfl, rfl, rfl⟩,
    _, Buffer.run_answer (Buffer.run_read h last.available true) Answer.taken, rfl, Buffer.alike_drained h⟩
  · rw [← hjoined, Buffer.toList_joined, Store.toList_empty, List.nil_append]
  · intro hr
    have hsize : Store.size last.remainder = last.available := by
      rw [Buffer.size_remainder h, if_pos hr]
    rw [Buffer.drained_eq_passed h hr]
    exact ⟨Buffer.toList_remainder h hr, hsize ▸ hlength, h.head_add_available, rfl, UInt64.ofNat_add _ _⟩
  · intro hr
    refine ⟨?_, ?_, Buffer.drained_eq_self hr⟩
    · rw [Buffer.remainder_eq_empty hr, Store.toList_empty]
    · apply List.eq_nil_of_length_eq_zero
      rw [hlength, Buffer.remainder_eq_empty hr, Store.size_empty]
      rfl

end Runs

/-- A reader of a `Tally` of six hundred elements that has read the first eighty-eight gives the others in two full
    chunks, and the third read gives nothing. -/
theorem read_to_end_complete_tally :
    ∃ (first last : Buffer Tally) (entries : List (Entry Tally Unit)) (pieces : List Tally) (after : Buffer Tally),
      first.New ∧ Run first entries last ∧ last.available = 512 ∧
        (Operation.readToEnd : Operation Tally Unit).perform.run last = .ok ⟨.elements ⟨512⟩, after, []⟩ ∧
        last.Drains pieces after ∧ pieces.length = 2 ∧ after.head = 600 ∧ after.epoch = last.epoch + 2 := by
  let first : Buffer Tally := Buffer.start ⟨600⟩ .reader "r"
  let last : Buffer Tally := { first with cursor := ⟨88, 600⟩, changes := 1 }
  have hnew : first.New := ⟨⟨600⟩, .reading, .reader, "r", rfl, by decide, rfl⟩
  have hfits : (Operation.read 88 true : Operation Tally Unit).Fits := trivial
  have hperform : (Operation.read 88 true : Operation Tally Unit).perform.run first = .ok ⟨.taken ⟨88⟩, last, []⟩ := by
    cbv
  have hrun : Run first [⟨first, .read 88 true, .taken ⟨88⟩, last⟩] last := .next hfits hperform (.done last)
  obtain ⟨pieces, elements, after, hend, ⟨hdrains, -⟩, hopen, -⟩ := read_to_end_complete hnew hrun
  obtain ⟨hcontent, hlength, hhead, -, hepoch⟩ := hopen rfl
  have helements : elements = ⟨512⟩ := by
    apply Store.ext_toList
    rw [hcontent]
    show ((List.replicate 600 ()).take 600).drop 88 = List.replicate 512 ()
    simp only [List.take_replicate, List.drop_replicate, Nat.min_self, Nat.reduceSub]
  have htwo : (last.available + 255) / 256 = 2 := by
    decide
  rw [htwo] at hlength hepoch
  exact ⟨first, last, _, pieces, after, hnew, hrun, rfl, helements ▸ hend, hdrains, hlength, hhead, hepoch⟩

end MemStream
