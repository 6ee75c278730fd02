import MemStream.Proofs.Draining
import MemStream.Proofs.Encoding
import MemStream.Proofs.Refused
import MemStream.Proofs.Scroll

/-!
# `MemStream.Proofs.Insisting` — asking until it is enough

A read may give fewer elements than it was asked for, and a write may take none. Whoever insists asks again: for what is
still missing, for whatever else there is, or for the rest to be written. It ends when nothing is left to ask for, or
with the first read or write that comes to nothing. Since a read gives all there is up to what it was asked for, and a
write is all or nothing, insisting never stops halfway for any other reason than that the elements have come to an end,
and then none of them is left; a write that is insisted on is never done in part.

## Contents
- **Elements.** `Buffer.unread` and `Buffer.readEnd`, what can be read and where the head is after it; `Buffer.WentOn`.
- **Rounds.** `run_gather_rounds`: how often a loop may go round does not matter beyond the number of elements.
- **A number of elements.** `Buffer.GivesExactly`.
- **Writes.** `Buffer.TakesAll`.
- **Text.** `Codec.ReadsUtf8`, `Buffer.GivesText`.
- **Runs.** `insisting_exact`.
-/

namespace MemStream

open StateAction Text

namespace Buffer

variable {σ α : Type} [Store σ α] {b : Buffer σ}

/-! ## Elements -/

/-- All elements that can be read: the `content` from the head on, or none where the reading side is closed. -/
def unread (b : Buffer σ) : List α :=
  if b.canRead then b.content.drop b.head else []

/-- Where the head is once everything has been read that can be: behind what is `unread`. -/
def readEnd (b : Buffer σ) : Nat :=
  if b.canRead then b.valid else b.head

/-- The head has gone on to `p`, which moves the epoch on and changes nothing else; a head that was at `p` already was
    not moved. -/
structure WentOn (b : Buffer σ) (p : Nat) (c : Buffer σ) : Prop where
  head : c.head = p
  valid : c.valid = b.valid
  data : c.data = b.data
  access : c.access = b.access
  reservation : c.reservation = b.reservation
  label : c.label = b.label
  same : p = b.head → c = b

omit [Store σ α] in
/-- A row of reads that leaves the buffer `passed` has let the head go on. -/
theorem wentOn_passed (b : Buffer σ) {k n : Nat} (hn : n = 0 ↔ k = 0) : b.WentOn (b.head + k) (b.passed k n) where
  head := rfl
  valid := rfl
  data := rfl
  access := rfl
  reservation := rfl
  label := rfl
  same hstay := by
    have hk : k = 0 := by omega
    rw [hk, hn.mpr hk, passed_zero]

variable [LawfulStore σ]

/-- What is `upcoming` is the front of what is `unread`. -/
theorem toList_upcoming (b : Buffer σ) (n : Nat) : Store.toList (b.upcoming n) = b.unread.take n := by
  unfold upcoming unread content
  cases b.canRead with
  | true =>
      have havailable : b.valid - b.head = b.available := rfl
      rw [if_pos rfl, if_pos rfl, LawfulStore.toList_slice, List.drop_take, List.take_take, havailable]
  | false => rw [if_neg Bool.false_ne_true, if_neg Bool.false_ne_true, Store.toList_empty, List.take_nil]

theorem length_unread (h : b.Ordered) : b.unread.length = if b.canRead then b.available else 0 := by
  unfold unread
  split
  · rw [List.length_drop, length_content h]
    rfl
  · rfl

/-- The `remainder` has the elements that are `unread`. -/
theorem toList_remainder_eq_unread (h : b.Ordered) : Store.toList b.remainder = b.unread := by
  have hlength := length_unread h
  unfold remainder
  rw [toList_upcoming, List.take_of_length_le]
  rw [hlength]
  split
  · exact Nat.le_refl _
  · exact Nat.zero_le _

/-- A read that gives less than it was asked for gives the whole `remainder`. -/
theorem upcoming_eq_remainder (h : b.Ordered) {n : Nat} (hfewer : Store.size (b.upcoming n) ≠ n) :
    b.upcoming n = b.remainder := by
  apply Store.ext_toList
  rw [← Store.length_toList, toList_upcoming, List.length_take] at hfewer
  rw [toList_remainder_eq_unread h, toList_upcoming, List.take_of_length_le]
  omega

/-- The `readEnd` lies behind the `remainder`. -/
theorem head_add_size_remainder (h : b.Ordered) : b.head + Store.size b.remainder = b.readEnd := by
  unfold readEnd
  rw [size_remainder h]
  split
  · exact h.head_add_available
  · rfl

/-! ## Rounds -/

/-- A read that gives something leaves fewer elements `available`, so rounds of `gather` beyond their number are never
    used. -/
theorem run_gather_rounds (request : Nat → Nat) (h : b.Ordered) {rounds others : Nat} (hrounds : b.available < rounds)
    (hothers : b.available < others) (gathered : σ) :
    (gather request rounds gathered).run b = (gather request others gathered).run b := by
  induction rounds generalizing b others gathered with
  | zero => exact absurd hrounds (Nat.not_lt_zero _)
  | succ rounds ih =>
      obtain ⟨others, rfl⟩ := Nat.exists_eq_succ_of_ne_zero (Nat.ne_of_gt (Nat.zero_lt_of_lt hothers))
      have hread := run_read h (request (Store.size gathered)) true
      unfold gather
      rw [run_ite, run_ite, run_bind_of_silent hread, run_bind_of_silent hread, run_ite, run_ite]
      split
      · rfl
      split
      · rfl
      · next hsome =>
          have hpos := Nat.pos_of_ne_zero hsome
          have hle := size_upcoming_le h (request (Store.size gathered))
          rw [if_pos rfl, consumed_eq_passed h hpos]
          generalize b.upcoming (request (Store.size gathered)) = elements at *
          have hleft := available_passed b (Store.size elements) 1
          exact ih (h.passed hle 1) (by omega) (by omega) _

/-- However many elements a `request` asks for at a time, if only some are, the whole `remainder` is gathered. -/
theorem run_gatherAll_remainder (h : b.Ordered) (request : Nat → Nat) (hasks : ∀ gathered, 0 < request gathered) :
    ∃ n, (gatherAll request).run b = .ok ⟨b.remainder, b.passed (Store.size b.remainder) n, []⟩ ∧
      (n = 0 ↔ Store.size b.remainder = 0) :=
  run_gatherAll_total request (fun _ _ => hasks _) h fun m hm => by omega

/-! ## A number of elements -/

/-- To `readExact` gives `count` elements if none are wanted, or if the buffer can be read and has so many before the
    head. Otherwise the answer is `TransferError.unexpectedEnd`, and by then everything has been read that can be. -/
def GivesExactly (b : Buffer σ) (count : Nat) : Prop :=
  ∃ step, (Operation.readExact count : Operation σ α).perform.run b = .ok step ∧
    if count = 0 ∨ b.canRead = true ∧ count ≤ b.available then
      ∃ elements, step.value = .gathered (.ok elements) ∧
        Store.toList elements = (b.content.drop b.head).take count ∧ b.WentOn (b.head + count) step.state
    else
      step.value = .gathered (.error .unexpectedEnd) ∧ b.WentOn b.readEnd step.state

/-- To insist on `count` elements comes to one read of `count`, and is well if that gives so many. -/
theorem run_readExact (h : b.Ordered) (count : Nat) :
    ∃ n, (readExact count).run b =
        .ok ⟨if Store.size (b.upcoming count) = count then .ok (b.upcoming count) else .error .unexpectedEnd,
          b.passed (Store.size (b.upcoming count)) n, []⟩ ∧
      (n = 0 ↔ Store.size (b.upcoming count) = 0) := by
  have hasks : ∀ m, m < count → 0 < count - m := fun m hm => Nat.sub_pos_of_lt hm
  obtain ⟨n, hrun, hn⟩ := run_gatherAll_total (fun gathered => count - gathered) hasks h fun m hm => by omega
  refine ⟨n, ?_, hn⟩
  unfold readExact
  rw [run_bind_of_silent hrun, run_ite]
  split
  · rfl
  · rfl

/-- There are enough elements exactly if one read of so many gives so many: none, or no more than are `available`. -/
theorem size_upcoming_eq_iff (h : b.Ordered) {count : Nat} :
    Store.size (b.upcoming count) = count ↔ count = 0 ∨ b.canRead = true ∧ count ≤ b.available := by
  rw [size_upcoming h]
  cases b.canRead with
  | true => simp; omega
  | false => simp [eq_comm]

theorem givesExactly (h : b.Ordered) (count : Nat) : b.GivesExactly count := by
  obtain ⟨n, hrun, hn⟩ := run_readExact h count
  have hmoved := wentOn_passed b hn
  by_cases henough : Store.size (b.upcoming count) = count
  · rw [if_pos henough] at hrun
    rw [henough] at hrun hmoved
    have hcount := (size_upcoming_eq_iff h).mp henough
    refine ⟨_, run_answer hrun Answer.gathered, ?_⟩
    rw [if_pos hcount]
    refine ⟨_, rfl, ?_, hmoved⟩
    rw [toList_upcoming]
    unfold unread
    rcases hcount with rfl | ⟨hr, -⟩
    · rfl
    · rw [if_pos hr]
  · -- one read gives all there is, so there is nothing left when the next one gives nothing
    have hall := upcoming_eq_remainder h henough
    rw [if_neg henough, hall] at hrun
    rw [hall, head_add_size_remainder h] at hmoved
    refine ⟨_, run_answer hrun Answer.gathered, ?_⟩
    rw [if_neg fun hno => henough ((size_upcoming_eq_iff h).mpr hno)]
    exact ⟨rfl, hmoved⟩

/-! ## Writes -/

/-- To `writeAll` does what one `write` does. It is well if there was nothing to write or the write took all; otherwise
    the answer is `TransferError.writeZero`, and nothing has been written. -/
def TakesAll (b : Buffer σ) (elements : σ) : Prop :=
  ∃ once all, (Operation.write elements : Operation σ α).perform.run b = .ok once ∧
    (Operation.writeAll elements : Operation σ α).perform.run b = .ok all ∧
    all.state = once.state ∧ all.events = once.events ∧
    (Store.size elements = 0 ∨ once.value = .count (Store.size elements) → all.value = .stored (.ok ())) ∧
    (¬ (Store.size elements = 0 ∨ once.value = .count (Store.size elements)) →
      all.value = .stored (.error .writeZero) ∧ once.value = .count 0 ∧ all.state.head = b.head ∧
        all.state.valid = b.valid ∧ all.state.content = b.content)

/-- What is left where room is wanted in vain (`balked`) has the same elements. -/
theorem content_balked (b : Buffer σ) (place : Option Nat) :
    (b.balked place).head = b.head ∧ (b.balked place).valid = b.valid ∧ (b.balked place).content = b.content := by
  unfold balked
  split
  · exact ⟨head_trimmed b, valid_trimmed b, content_trimmed b⟩
  · exact ⟨rfl, rfl, rfl⟩

theorem takesAll (h : b.Ordered) (elements : σ) : b.TakesAll elements := by
  have hall := run_writeAll h elements
  by_cases hzero : Store.size elements = 0
  · have honce : (write elements).run b = .ok ⟨0, b, []⟩ := by
      rw [run_write h, if_neg fun hgo => Nat.ne_of_gt hgo.2 hzero]
    rw [if_pos hzero] at hall
    exact ⟨_, _, run_answer honce Answer.count, run_answer hall Answer.stored, rfl, rfl, fun _ => rfl,
      fun hno => absurd (.inl hzero) hno⟩
  · obtain ⟨events, honce⟩ := run_write_yields h elements
    rw [if_neg hzero, honce] at hall
    cases hyields : b.yields ((Operation.write elements : Operation σ α).place? b) with
    | true =>
        rw [hyields, if_pos rfl] at honce hall
        simp only [Except.map, if_neg hzero] at hall
        exact ⟨_, _, run_answer honce Answer.count, run_answer hall Answer.stored, rfl, rfl, fun _ => rfl,
          fun hno => absurd (.inr rfl) hno⟩
    | false =>
        rw [hyields, if_neg Bool.false_ne_true] at honce hall
        simp only [Except.map, if_pos] at hall
        refine ⟨_, _, run_answer honce Answer.count, run_answer hall Answer.stored, rfl, rfl, ?_, ?_⟩
        · rintro (hnone | hfull)
          · exact absurd hnone hzero
          · exact absurd (Answer.count.inj hfull).symm hzero
        · intro _
          exact ⟨rfl, rfl, content_balked b _⟩

end Buffer

/-! ## Text -/

/-- A codec that reads bytes as the text whose bytes they are in UTF-8, and no others as text. -/
def Text.Codec.ReadsUtf8 {σ : Type} [Store σ UInt8] (codec : Codec σ) : Prop :=
  ∀ s (text : String), codec.decode s = .ok text ↔ Store.toList s = text.toByteArray.data.toList

/-- The codec `Codec.utf8` is one of these: it is `Faithful`, and by `Utf8.encode_toList` its spelling is the right
    one. -/
theorem Text.Codec.utf8_readsUtf8 {limit : Nat} : (Codec.utf8 : Codec (Cells UInt8 limit)).ReadsUtf8 := by
  intro s text
  have hbytes : Store.toList (Codec.utf8.encode text : Cells UInt8 limit) = text.toByteArray.data.toList := by
    rw [← Utf8.encode_toList]
    rfl
  rw [Codec.utf8_faithful, ← hbytes]
  exact ⟨congrArg Store.toList, Store.ext_toList⟩

namespace Buffer

section Bytes

variable {σ : Type} [Store σ UInt8] {b : Buffer σ}

/-- To `readText` reads everything that can be read, and answers with its number of bytes and the text if they are the
    bytes of a text, and otherwise with `TransferError.notText`. -/
def GivesText (b : Buffer σ) (codec : Codec σ) : Prop :=
  ∃ step, (Operation.readText codec : Operation σ UInt8).perform.run b = .ok step ∧ b.WentOn b.readEnd step.state ∧
    (∀ n (text : String), step.value = .text (.ok (n, text)) ↔
      n = b.unread.length ∧ b.unread = text.toByteArray.data.toList) ∧
    ((∀ text : String, b.unread ≠ text.toByteArray.data.toList) → step.value = .text (.error .notText))

variable [LawfulStore σ]

theorem givesText (h : b.Ordered) {codec : Codec σ} (hcodec : codec.ReadsUtf8) : b.GivesText codec := by
  obtain ⟨n, hrun, hn⟩ := run_gatherAll_remainder h (fun gathered => max probeSize gathered)
    fun gathered => Nat.lt_of_lt_of_le (Nat.succ_pos _) (Nat.le_max_left _ _)
  have hmoved := wentOn_passed b hn
  rw [head_add_size_remainder h] at hmoved
  have hunread := toList_remainder_eq_unread h
  have hsize : Store.size b.remainder = b.unread.length := by rw [← hunread, Store.length_toList]
  have hread : (readText codec).run b =
      .ok ⟨Scroll.readAs codec b.remainder, b.passed (Store.size b.remainder) n, []⟩ := by
    unfold readText Scroll.readAs
    rw [run_bind_of_silent hrun]
    cases codec.decode b.remainder <;> rfl
  have htext := hcodec b.remainder
  rw [hunread] at htext
  refine ⟨_, run_answer hread Answer.text, hmoved, ?_, ?_⟩
  · intro m text
    rw [← htext, ← hsize]
    unfold Scroll.readAs
    cases hdecode : codec.decode b.remainder with
    | ok other => simp [eq_comm]
    | error flaw => simp
  · intro hnone
    unfold Scroll.readAs
    cases hdecode : codec.decode b.remainder with
    | ok other => exact absurd ((htext other).mp hdecode) (hnone other)
    | error flaw => rfl

end Bytes

end Buffer

/-! ## Runs -/

section Runs

variable {σ : Type} [Store σ UInt8] [LawfulStore σ] {entries : List (Entry σ UInt8)} {first last : Buffer σ}

/-- **Insisting is exact.** Whatever was done to a new buffer of bytes, with whatever tickets and however often the
    epochs have come round:
    - any number of elements is given in full or the answer is that the data ended early (`GivesExactly`), any text is
      given in full or the answer is that there is none (`GivesText`), and any write is taken in full or the answer is
      that nothing was taken (`TakesAll`), each exactly when it has to be and with exactly that left which has to be;
    - it does not matter how often the loops of `gather` and `writeOn` may go round, if they may do so more often than
      there are elements to read or to write, nor how many elements a `request` asks for at a time where all are
      wanted. -/
theorem insisting_exact (hnew : first.New) (hrun : Run first entries last) {codec : Codec σ}
    (hcodec : codec.ReadsUtf8) :
    (∀ count, last.GivesExactly count) ∧ last.GivesText codec ∧ (∀ elements, last.TakesAll elements) ∧
      (∀ (request : Nat → Nat) (rounds : Nat), last.available < rounds →
        (Buffer.gather request rounds Store.empty).run last = (Buffer.gatherAll request).run last) ∧
      (∀ (elements : σ) (rounds : Nat), Store.size elements < rounds →
        (Buffer.writeOn rounds elements).run last = (Buffer.writeAll elements).run last) ∧
      ∀ request : Nat → Nat, (∀ gathered, 0 < request gathered) →
        ∃ step, (Buffer.gatherAll request).run last = .ok step ∧ Store.toList step.value = last.unread ∧
          last.WentOn last.readEnd step.state := by
  have h := (hrun.neat hnew.neat).ordered
  refine ⟨Buffer.givesExactly h, Buffer.givesText h hcodec, Buffer.takesAll h, ?_, ?_, ?_⟩
  · intro request rounds hrounds
    unfold Buffer.gatherAll
    rw [run_look_bind]
    exact Buffer.run_gather_rounds request h hrounds (Nat.lt_succ_self _) _
  · intro elements rounds hrounds
    rw [Buffer.run_writeOn h hrounds, Buffer.run_writeAll h]
  · intro request hasks
    obtain ⟨n, hgather, hn⟩ := Buffer.run_gatherAll_remainder h request hasks
    have hmoved := Buffer.wentOn_passed last hn
    rw [Buffer.head_add_size_remainder h] at hmoved
    exact ⟨_, hgather, Buffer.toList_remainder_eq_unread h, hmoved⟩

end Runs

/-- A reader that has read the first of three `SmallBytes` gives the other two, which are one character, but not three.
    Nothing can be written to it. -/
theorem insisting_exact_reader :
    ∃ (first last : Buffer SmallBytes) (entries : List (Entry SmallBytes UInt8))
        (pair short text refused : Step (Buffer SmallBytes) Event (Answer SmallBytes UInt8)) (elements : SmallBytes),
      first.New ∧ Run first entries last ∧ (Codec.utf8 : Codec SmallBytes).ReadsUtf8 ∧ last.head = 1 ∧
        (Operation.readExact 2).perform.run last = .ok pair ∧ pair.value = .gathered (.ok elements) ∧
        Store.toList elements = [0xc3, 0xa9] ∧ pair.state.head = 3 ∧
        (Operation.readExact 3).perform.run last = .ok short ∧
        short.value = .gathered (.error .unexpectedEnd) ∧ short.state.head = 3 ∧
        (Operation.readText Codec.utf8).perform.run last = .ok text ∧ text.value = .text (.ok (2, "é")) ∧
        text.state.head = 3 ∧
        (Operation.writeAll ⟨#[1]⟩).perform.run last = .ok refused ∧ refused.value = .stored (.error .writeZero) ∧
        refused.state.head = 1 := by
  let first : Buffer SmallBytes := Buffer.start ⟨#[0x68, 0xc3, 0xa9]⟩ .reader "r"
  let last : Buffer SmallBytes := { first with cursor := ⟨1, 3⟩, changes := 1 }
  have hnew : first.New := ⟨⟨#[0x68, 0xc3, 0xa9]⟩, .reading, .reader, "r", rfl, by decide, rfl⟩
  have hfits : (Operation.read 1 true : Operation SmallBytes UInt8).Fits := trivial
  have hperform : (Operation.read 1 true : Operation SmallBytes UInt8).perform.run first =
      .ok ⟨.taken ⟨#[0x68]⟩, last, []⟩ := by
    cbv
  have hrun : Run first [⟨first, .read 1 true, .taken ⟨#[0x68]⟩, last⟩] last := .next hfits hperform (.done last)
  obtain ⟨hexactly, ⟨text, htext, htextMoved, htextValue, -⟩, hwrites, -⟩ :=
    insisting_exact hnew hrun Codec.utf8_readsUtf8
  obtain ⟨pair, hpair, hpairOutcome⟩ := hexactly 2
  obtain ⟨short, hshort, hshortOutcome⟩ := hexactly 3
  obtain ⟨once, refused, honce, hrefused, -, -, -, hnothing⟩ := hwrites ⟨#[1]⟩
  rw [if_pos (by decide)] at hpairOutcome
  rw [if_neg (by decide)] at hshortOutcome
  obtain ⟨elements, hpairValue, helements, hpairMoved⟩ := hpairOutcome
  have hwrite : (Operation.write ⟨#[1]⟩ : Operation SmallBytes UInt8).perform.run last = .ok ⟨.count 0, last, []⟩ := by
    cbv
  cases hwrite.symm.trans honce
  have hno : ¬ (Store.size (⟨#[1]⟩ : SmallBytes) = 0 ∨
      (Answer.count 0 : Answer SmallBytes UInt8) = .count (Store.size (⟨#[1]⟩ : SmallBytes))) := by
    rintro (hzero | hone)
    · cases hzero
    · cases hone
  obtain ⟨hrefusedValue, -, hrefusedHead, -⟩ := hnothing hno
  exact ⟨first, last, _, pair, short, text, refused, elements, hnew, hrun, Codec.utf8_readsUtf8, rfl, hpair, hpairValue,
    helements, hpairMoved.head, hshort, hshortOutcome.1, hshortOutcome.2.head, htext,
    (htextValue 2 "é").mpr ⟨rfl, by decide⟩, htextMoved.head, hrefused, hrefusedValue, hrefusedHead⟩

end MemStream
