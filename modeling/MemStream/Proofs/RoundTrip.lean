import MemStream.Proofs.Encoding
import MemStream.Proofs.Harvest

/-!
# `MemStream.Proofs.RoundTrip` — text goes out and comes back

A text is written out as a sequence of elements, and a writer takes them in however they are cut up: also inside the
spelling of one character, in no elements at all, and with flushes between them. What is harvested then is the spelling
of the text again, and is read as the text. A reader over the spelling hands it out in order, however it is asked.

Whatever else was done to a writer, its harvest is read as a text exactly if it is the spelling of that text. The harvest
is what has been committed where the handle is the last or the store has no tail; a run that settles its own tickets
leaves no tail without a live reservation. With a ticket of another buffer it may leave one, which the harvest of a
shared buffer then contains.

## Contents
- **Writing.** `WriteStep`, and `Composing` for a writer that has taken in a sequence.
- **Reading.** `ReadStep` with the `servings` it leads to, and `Reciting` for a reader with a sequence before it.
- **Harvesting.** `run_harvestText`.
- **Both ways.** `Codec.RoundTrips`, and `text_round_trips` for bytes and for sixteen-bit units.
-/

namespace MemStream

open StateAction Text

variable {σ α : Type} [Store σ α] [LawfulStore σ]

/-! ## Writing -/

/-- A step of writing a sequence out: a `write`, a `writeOne` or a `flush`. -/
inductive WriteStep (σ α : Type) where
  | write (elements : σ)
  | writeOne (element : α)
  | flush

namespace WriteStep

/-- The `Operation` that does the step. -/
def operation : WriteStep σ α → Operation σ α
  | write elements => .write elements
  | writeOne element => .writeOne element
  | flush => .sync

/-- The elements of the step, of which a `flush` has none. -/
def elements : WriteStep σ α → List α
  | write elements => Store.toList elements
  | writeOne element => [element]
  | flush => []

/-- The `Answer` to the step if it goes through. -/
def success : WriteStep σ α → Answer σ α
  | write elements => .count (Store.size elements)
  | writeOne element => .element (some element)
  | flush => .flag true

end WriteStep

/-- There is room for `limit` elements: the store `accepts` every length up to there. -/
structure Roomy (σ : Type) {α : Type} [Store σ α] (limit : Nat) : Prop where
  limit_lt : limit < positionLimit
  accepts : ∀ (s : σ) n, n ≤ limit → Store.accepts s n = true

namespace Buffer

variable {b c : Buffer σ} {taken left : List α} {limit : Nat}

/-- A writer that has `taken` in a sequence and stands at its end, with `head = valid = capacity`. -/
structure Composing (b : Buffer σ) (taken : List α) : Prop where
  ordered : b.Ordered
  canWrite : b.canWrite = true
  atEnd : b.head = b.valid
  untailed : b.capacity = b.valid
  data : Store.toList b.data = taken

/-- A new `writer` has taken in nothing. -/
theorem composing_writer : Composing (writer : Logged (Buffer σ)).value ([] : List α) where
  ordered := by
    refine ⟨Nat.le_refl _, Nat.le_refl _, ?_⟩
    show Store.size (Store.empty : σ) < positionLimit
    rw [Store.size_empty]
    decide
  canWrite := rfl
  atEnd := rfl
  untailed := rfl
  data := Store.toList_empty

theorem Composing.valid (h : Composing b taken) : b.valid = taken.length := by
  rw [← h.untailed, ← h.data, Store.length_toList]
  rfl

/-- What is `written` at the end is taken in behind what was `taken` before. -/
theorem Composing.written (h : Composing b taken) {elements : σ}
    (hlimit : taken.length + Store.size elements < positionLimit) :
    Composing (b.written elements) (taken ++ Store.toList elements) := by
  have hvalid := h.valid
  have hhead : b.head = taken.length := h.atEnd.trans hvalid
  have hlimit' : b.head + Store.size elements < positionLimit := by
    rw [hhead]
    exact hlimit
  have hreached : (b.written elements).valid = b.head + Store.size elements := by
    rw [valid_written elements h.canWrite]
    omega
  refine ⟨h.ordered.written h.canWrite hlimit', (canWrite_written b elements).trans h.canWrite, hreached.symm,
    capacity_written h.ordered h.canWrite elements, ?_⟩
  rw [data_written h.ordered, Store.toList_overlay, toList_trimmed, content_eq_toList (Nat.le_of_eq h.untailed), h.data,
    hhead, List.take_length, List.drop_of_length_le (Nat.le_add_right _ _), List.append_nil]

/-- A `write` that stays within the `limit` of a `Roomy` store goes through. -/
theorem Composing.write (h : Composing b taken) (hroomy : Roomy σ limit) (elements : σ)
    (hroom : taken.length + Store.size elements ≤ limit) :
    ∃ step, (Buffer.write elements).run b = .ok step ∧ step.value = Store.size elements ∧
      Composing step.state (taken ++ Store.toList elements) := by
  have hhead : b.head = taken.length := h.atEnd.trans h.valid
  have hlimit : b.head + Store.size elements < positionLimit := by
    rw [hhead]
    exact Nat.lt_of_le_of_lt hroom hroomy.limit_lt
  rw [run_write h.ordered]
  by_cases hsome : 0 < Store.size elements
  · have hadmits : b.trimmed.admits (b.head + Store.size elements) = true := by
      unfold admits
      rw [hroomy.accepts _ _ (hhead ▸ hroom), Bool.or_true]
    rw [if_pos ⟨h.canWrite, hsome⟩, if_pos hlimit, if_pos hadmits]
    exact ⟨_, rfl, rfl, h.written (hhead ▸ hlimit)⟩
  · have hnone : Store.toList elements = [] := by
      rw [← List.length_eq_zero_iff, Store.length_toList]
      omega
    rw [if_neg fun hboth => hsome hboth.2, hnone, List.append_nil]
    exact ⟨_, rfl, (Nat.eq_zero_of_not_pos hsome).symm, h⟩

/-- Every `WriteStep` goes through within the `limit` of a `Roomy` store. -/
theorem Composing.perform (h : Composing b taken) (hroomy : Roomy σ limit) (writeStep : WriteStep σ α)
    (hroom : taken.length + writeStep.elements.length ≤ limit) :
    ∃ step, writeStep.operation.perform.run b = .ok step ∧ step.value = writeStep.success ∧
      Composing step.state (taken ++ writeStep.elements) := by
  cases writeStep with
  | write elements =>
      have hfits : taken.length + Store.size elements ≤ limit := by
        rw [← Store.length_toList]
        exact hroom
      obtain ⟨step, hrun, hvalue, hstate⟩ := h.write hroomy elements hfits
      refine ⟨_, run_answer hrun _, ?_, hstate⟩
      rw [hvalue]
      rfl
  | writeOne element =>
      have hfits : taken.length + Store.size (Store.single element : σ) ≤ limit := by
        rw [Store.size_single]
        exact hroom
      obtain ⟨step, hrun, hvalue, hstate⟩ := h.write hroomy (Store.single element) hfits
      have hone : (Buffer.writeOne (σ := σ) element).run b = .ok ⟨some element, step.state, step.events⟩ := by
        rw [run_writeOne, hrun]
        simp [Except.map, hvalue]
      refine ⟨_, run_answer hone _, rfl, ?_⟩
      simpa [WriteStep.elements] using hstate
  | flush => exact ⟨_, rfl, rfl, by simpa [WriteStep.elements] using h⟩

/-- However a sequence is cut up into `writeSteps`, it is taken in. -/
theorem Composing.performAll (h : Composing b taken) (hroomy : Roomy σ limit) {writeSteps : List (WriteStep σ α)}
    (hroom : taken.length + (writeSteps.flatMap (·.elements)).length ≤ limit) :
    ∃ last events, (Operation.performAll (writeSteps.map (·.operation))).run b =
        .ok ⟨writeSteps.map (·.success), last, events⟩ ∧
      Composing last (taken ++ writeSteps.flatMap (·.elements)) := by
  induction writeSteps generalizing b taken with
  | nil => exact ⟨b, [], rfl, by simpa using h⟩
  | cons writeStep writeSteps ih =>
      rw [List.flatMap_cons, List.length_append] at hroom
      obtain ⟨step, hrun, hvalue, hstate⟩ := h.perform hroomy writeStep (by omega)
      obtain ⟨last, events, hrest, hlast⟩ := ih hstate (by rw [List.length_append]; omega)
      refine ⟨last, step.events ++ events, ?_, ?_⟩
      · rw [List.map_cons, Operation.performAll_cons, run_bind_of_ok hrun, bind_pure_comp, run_map, hrest, hvalue]
        rfl
      · rwa [List.flatMap_cons, ← List.append_assoc]

end Buffer

/-! ## Reading -/

/-- A step of reading a sequence: a `read`, a `readOne` or a `readToEnd`. -/
inductive ReadStep where
  | read (count : Nat)
  | readOne
  | readToEnd

namespace ReadStep

/-- The `Operation` that does the step. -/
def operation : ReadStep → Operation σ α
  | read count => .read count true
  | readOne => .readOne true
  | readToEnd => .readToEnd

/-- How many elements the step asks for where so many are `left`. -/
def asks (left : Nat) : ReadStep → Nat
  | read count => count
  | readOne => 1
  | readToEnd => left

end ReadStep

/-- The elements that an `Answer` hands over. -/
def Answer.handedOver : Answer σ α → List α
  | .taken piece | .elements piece => Store.toList piece
  | .element value => value.toList
  | _ => []

/-- What the steps come to, one after the other: each gets what it `asks` for, or as much of it as is `left`. -/
def servings (left : List α) : List ReadStep → List (List α)
  | [] => []
  | readStep :: rest =>
      left.take (readStep.asks left.length) :: servings (left.drop (readStep.asks left.length)) rest

omit [Store σ α] [LawfulStore σ] in
/-- The `servings` are a front of what was `left`, in order, and all of it if everything was asked for. -/
theorem flatten_servings (left : List α) (readSteps : List ReadStep) :
    (servings left readSteps).flatten <+: left ∧
      (.readToEnd ∈ readSteps → (servings left readSteps).flatten = left) := by
  induction readSteps generalizing left with
  | nil => simp [servings]
  | cons readStep rest ih =>
      obtain ⟨hfront, hall⟩ := ih (left.drop (readStep.asks left.length))
      simp only [servings, List.flatten_cons]
      constructor
      · obtain ⟨later, hlater⟩ := hfront
        refine ⟨later, ?_⟩
        rw [List.append_assoc, hlater, List.take_append_drop]
      · intro hmem
        rcases List.mem_cons.mp hmem with rfl | hmem
        · have hnone : left.drop left.length = [] := List.drop_length
          obtain ⟨later, hlater⟩ := hfront
          simp only [ReadStep.asks, hnone, List.append_eq_nil_iff] at hlater ⊢
          rw [hlater.1, List.take_length, List.append_nil]
        · rw [hall hmem, List.take_append_drop]

namespace Buffer

variable {b : Buffer σ} {left : List α}

/-- A reader that has a sequence before it (`left`), and nothing behind that. -/
structure Reciting (b : Buffer σ) (left : List α) : Prop where
  ordered : b.Ordered
  canRead : b.canRead = true
  untailed : b.capacity = b.valid
  left : (Store.toList b.data).drop b.head = left

omit [LawfulStore σ] in
/-- A new `reader` has all its data before it. -/
theorem reciting_reader {data : σ} (hsize : Store.size data < positionLimit) :
    Reciting (reader data).value (Store.toList data) where
  ordered := ⟨Nat.zero_le _, Nat.le_refl _, hsize⟩
  canRead := rfl
  untailed := rfl
  left := List.drop_zero

theorem Reciting.length_left (h : Reciting b left) : left.length = b.available := by
  have huntailed := h.untailed
  unfold capacity at huntailed
  rw [← h.left, List.length_drop, Store.length_toList, huntailed]
  rfl

/-- What is `upcoming` is the front of what is `left`. -/
theorem Reciting.toList_upcoming (h : Reciting b left) (n : Nat) : Store.toList (b.upcoming n) = left.take n := by
  unfold upcoming
  rw [if_pos h.canRead, LawfulStore.toList_slice, h.left, ← h.length_left, ← List.take_take, List.take_length]

omit [LawfulStore σ] in
/-- What is `passed` is no longer `left`. -/
theorem Reciting.passed (h : Reciting b left) {k : Nat} (hk : k ≤ b.available) (n : Nat) :
    Reciting (b.passed k n) (left.drop k) where
  ordered := h.ordered.passed hk n
  canRead := h.canRead
  untailed := h.untailed
  left := by
    rw [← h.left, List.drop_drop]
    rfl

theorem Reciting.consumed (h : Reciting b left) (n : Nat) : Reciting (b.consumed n) (left.drop n) := by
  have hsize : Store.size (b.upcoming n) = min n left.length := by
    rw [← Store.length_toList, h.toList_upcoming, List.length_take]
  by_cases hsome : 0 < Store.size (b.upcoming n)
  · have hpassed := h.passed (size_upcoming_le h.ordered n) 1
    rw [consumed_eq_passed h.ordered hsome]
    have hdrop : left.drop (min n left.length) = left.drop n := by
      rcases Nat.le_total n left.length with hle | hle
      · rw [Nat.min_eq_left hle]
      · rw [Nat.min_eq_right hle, List.drop_length, List.drop_of_length_le hle]
    rw [hsize, hdrop] at hpassed
    rwa [hsize]
  · rw [consumed_eq_self hsome]
    have hsame : left.drop n = left := by
      rcases Nat.eq_zero_or_pos n with rfl | hn
      · exact List.drop_zero
      · have hempty : left = [] := List.length_eq_zero_iff.mp (by omega)
        rw [hempty, List.drop_nil]
    rwa [hsame]

/-- Every `ReadStep` is served what it `asks` for. -/
theorem Reciting.perform (h : Reciting b left) (readStep : ReadStep) :
    ∃ step, (readStep.operation : Operation σ α).perform.run b = .ok step ∧
      step.value.handedOver = left.take (readStep.asks left.length) ∧
      Reciting step.state (left.drop (readStep.asks left.length)) := by
  cases readStep with
  | read count =>
      exact ⟨_, run_answer (run_read h.ordered count true) _, h.toList_upcoming count, h.consumed count⟩
  | readOne =>
      refine ⟨_, run_answer (run_readOne h.ordered true) _, ?_, h.consumed 1⟩
      show (Store.head? (b.upcoming 1)).toList = left.take 1
      rw [LawfulStore.head?_eq, h.toList_upcoming]
      cases left <;> rfl
  | readToEnd =>
      have hstops : ∀ m, m ≤ b.available → m + min chunkSize (b.available - m) ≤ b.available := by
        intro m hm
        omega
      obtain ⟨n, hrun, -⟩ := run_gatherAll_total (fun _ => chunkSize) (fun _ _ => Nat.succ_pos _) h.ordered hstops
      have hall : Store.toList (b.upcoming b.available) = left := by
        rw [h.toList_upcoming, ← h.length_left, List.take_length]
      have hsize : Store.size (b.upcoming b.available) = left.length := by
        rw [← Store.length_toList, hall]
      refine ⟨_, run_answer hrun _, ?_, ?_⟩
      · show Store.toList (b.upcoming b.available) = left.take left.length
        rw [hall, List.take_length]
      · rw [hsize]
        exact h.passed (Nat.le_of_eq h.length_left) n

/-- However a sequence is asked for by `readSteps`, it is served in order. -/
theorem Reciting.performAll (h : Reciting b left) (readSteps : List ReadStep) :
    ∃ answers last events, (Operation.performAll (readSteps.map (·.operation)) : BufferAction σ (List (Answer σ α))).run b =
        .ok ⟨answers, last, events⟩ ∧ answers.map (·.handedOver) = servings left readSteps := by
  induction readSteps generalizing b left with
  | nil => exact ⟨[], b, [], rfl, rfl⟩
  | cons readStep readSteps ih =>
      obtain ⟨step, hrun, hserved, hstate⟩ := h.perform readStep
      obtain ⟨answers, last, events, hrest, hservings⟩ := ih hstate
      refine ⟨step.value :: answers, last, step.events ++ events, ?_, ?_⟩
      · rw [List.map_cons, Operation.performAll_cons, run_bind_of_ok hrun, bind_pure_comp, run_map, hrest]
        rfl
      · simp only [List.map_cons, hserved, hservings, servings]

end Buffer

/-! ## Harvesting -/

/-- The elements that a harvest has before they are read as text: the `content` for the last handle, and the whole store
    for any other. -/
def harvestOf (s : Session σ) (id : BufferId) (b : Buffer σ) : List α :=
  if s.handles id = 1 then b.content else Store.toList b.data

/-- A harvest is the `content` exactly if the handle is the last (`handles = 1`) or there is no tail
    (`capacity ≤ valid`). -/
theorem harvestOf_eq_content_iff {s : Session σ} {id : BufferId} {b : Buffer σ} :
    harvestOf s id b = b.content ↔ s.handles id = 1 ∨ b.capacity ≤ b.valid := by
  unfold harvestOf
  by_cases hlast : s.handles id = 1
  · simp [hlast]
  · rw [if_neg hlast, Buffer.toList_data_eq_content_iff]
    simp [hlast]

/-- A `harvestText` never fails to answer, and what is read are the elements of `harvestOf`. -/
theorem run_harvestText {s : Session σ} {slot : String} {id : BufferId} {b : Buffer σ}
    (hslot : s.slots.find? slot = some id) (hfind : s.buffers.find? id = some b) (codec : Codec σ) :
    ∃ (step : Step (Session σ) Report (Reply σ α)) (elements : σ),
      (Command.harvestText slot codec).perform.run s = .ok step ∧
        step.value = .text (Command.readHarvest codec elements) ∧ Store.toList elements = harvestOf s id b := by
  obtain ⟨step, hcollect, hvalue⟩ := run_collect slot hfind
  obtain ⟨-, htext⟩ := run_harvest (α := α) hslot hcollect hvalue codec
  refine ⟨_, _, htext, rfl, ?_⟩
  unfold harvestOf
  split
  · exact Buffer.toList_handedOut b
  · rfl

omit [LawfulStore σ] [Store σ α] in
/-- What is harvested is read by `Command.readHarvest` as a text, or there is a `Refusal.encoding`. -/
theorem readHarvest_cases (codec : Codec σ) (elements : σ) :
    (∃ text, codec.decode elements = .ok text ∧ Command.readHarvest codec elements = .ok text) ∨
      ∃ flaw, codec.decode elements = .error flaw ∧
        Command.readHarvest codec elements = .error (.encoding flaw.message) := by
  unfold Command.readHarvest
  cases hread : codec.decode elements with
  | ok text => exact .inl ⟨text, rfl, rfl⟩
  | error flaw => exact .inr ⟨flaw, rfl, rfl⟩

/-- With a codec that is `Faithful`, what is read as a text is its spelling. -/
theorem readHarvest_eq_ok_iff {codec : Codec σ} (hcodec : codec.Faithful) {elements : σ} {text : String} :
    Command.readHarvest codec elements = .ok text ↔ Store.toList elements = Store.toList (codec.encode text) := by
  have hsame : Store.toList elements = Store.toList (codec.encode text) ↔ elements = codec.encode text :=
    ⟨Store.ext_toList, congrArg Store.toList⟩
  rw [hsame, ← hcodec]
  rcases readHarvest_cases codec elements with ⟨other, hread, hharvest⟩ | ⟨flaw, hread, hharvest⟩
  · rw [hread, hharvest]
    simp
  · rw [hread, hharvest]
    simp

/-! ## Both ways -/

/-- Text goes out and comes back, as long as its spelling by `encode` has no more than `limit` elements. -/
structure Text.Codec.RoundTrips (codec : Codec σ) (limit : Nat) : Prop where
  /-- However the spelling of a text is cut up, a new writer takes all of it in, and its harvest is read as the text,
      whichever session it is in and whoever shares it. -/
  writes : ∀ (text : String) (writeSteps : List (WriteStep σ α)), Store.size (codec.encode text) ≤ limit →
    writeSteps.flatMap (·.elements) = Store.toList (codec.encode text) →
      ∃ last events, (Operation.performAll (writeSteps.map (·.operation))).run (Buffer.writer : Logged (Buffer σ)).value =
          .ok ⟨writeSteps.map (·.success), last, events⟩ ∧
        ∀ (s : Session σ) slot id, s.slots.find? slot = some id → s.buffers.find? id = some last →
          ∃ step, (Command.harvestText slot codec : Command σ α).perform.run s = .ok step ∧
            step.value = .text (.ok text)
  /-- However the spelling of a text is asked for, a new reader over it serves it in order. -/
  reads : ∀ (text : String) (readSteps : List ReadStep), Store.size (codec.encode text) ≤ limit →
    ∃ (answers : List (Answer σ α)) (last : Buffer σ) (events : List Event),
      (Operation.performAll (readSteps.map (·.operation))).run (Buffer.reader (codec.encode text)).value =
          .ok ⟨answers, last, events⟩ ∧
        answers.map (·.handedOver) = servings (Store.toList (codec.encode text)) readSteps ∧
        (answers.map (·.handedOver)).flatten <+: Store.toList (codec.encode text) ∧
        (.readToEnd ∈ readSteps → (answers.map (·.handedOver)).flatten = Store.toList (codec.encode text))

/-- The `writer` without a check is new, too. -/
theorem new_writer : (Buffer.writer : Logged (Buffer σ)).value.New := by
  refine ⟨Store.empty, .writing, .writer, _, rfl, ?_, rfl⟩
  rw [Store.size_empty]
  decide

/-- A codec that is `Faithful` brings text back, where the store is `Roomy`. -/
theorem Text.Codec.Faithful.roundTrips {codec : Codec σ} (hcodec : codec.Faithful) {limit : Nat} (hroomy : Roomy σ limit) :
    codec.RoundTrips limit where
  writes text writeSteps hsize hspelling := by
    have hroom : ([] : List α).length + (writeSteps.flatMap (·.elements)).length ≤ limit := by
      rw [hspelling, Store.length_toList]
      simpa using hsize
    obtain ⟨last, events, hrun, hlast⟩ := Buffer.composing_writer.performAll hroomy hroom
    refine ⟨last, events, hrun, ?_⟩
    intro s slot id hslot hfind
    obtain ⟨step, elements, hharvest, hvalue, helements⟩ := run_harvestText hslot hfind codec
    refine ⟨step, hharvest, hvalue.trans (congrArg Reply.text ((readHarvest_eq_ok_iff hcodec).mpr ?_))⟩
    -- without a tail it does not matter who else shares the buffer
    rw [helements, harvestOf_eq_content_iff.mpr (.inr (Nat.le_of_eq hlast.untailed)),
      Buffer.content_eq_toList (Nat.le_of_eq hlast.untailed), hlast.data, List.nil_append, hspelling]
  reads text readSteps hsize := by
    have hdata := Buffer.reciting_reader (Nat.lt_of_le_of_lt hsize hroomy.limit_lt)
    obtain ⟨answers, last, events, hrun, hservings⟩ := hdata.performAll readSteps
    obtain ⟨hfront, hall⟩ := flatten_servings (Store.toList (codec.encode text)) readSteps
    rw [← hservings] at hfront hall
    exact ⟨answers, last, events, hrun, hservings, hfront, hall⟩

/-- The stores `Cells` have room up to their `limit`. -/
theorem roomy_cells {β : Type} [Blank β] {limit : Nat} (hlimit : limit < positionLimit) : Roomy (Cells β limit) limit where
  limit_lt := hlimit
  accepts s n hn := (Cells.accepts_iff s n).mpr hn

/-- Where `harvestOf` is not the `content`, reading it comes to the same only if neither of them is a text. -/
theorem reads_committed_iff {codec : Codec σ} {s : Session σ} {id : BufferId} {b : Buffer σ}
    {outcome : Except Refusal String}
    (hread : ∀ text, outcome = .ok text ↔ harvestOf s id b = Store.toList (codec.encode text)) :
    (∀ text, outcome = .ok text ↔ b.content = Store.toList (codec.encode text)) ↔
      (s.handles id = 1 ∨ b.capacity ≤ b.valid) ∨
        ∀ text, harvestOf s id b ≠ Store.toList (codec.encode text) ∧ b.content ≠ Store.toList (codec.encode text) := by
  rw [← harvestOf_eq_content_iff]
  constructor
  · intro hcommitted
    by_cases hsame : harvestOf s id b = b.content
    · exact .inl hsame
    · refine .inr fun text => ⟨?_, ?_⟩
      · intro hharvest
        exact hsame (hharvest.trans ((hcommitted text).mp ((hread text).mpr hharvest)).symm)
      · intro hcontent
        exact hsame (((hread text).mp ((hcommitted text).mpr hcontent)).trans hcontent.symm)
  · rintro (hsame | hneither) text
    · rw [hread text, hsame]
    · rw [hread text]
      exact iff_of_false (hneither text).1 (hneither text).2

/-- **Text goes out and comes back.** Bytes and sixteen-bit units are read exactly as the texts that they spell, and the
    bytes are those that a string is kept as. Of every codec that is `Faithful`:
    - a new writer takes in the spelling of a text however it is cut up, and its harvest is read as the text; a new
      reader serves the spelling in order however it is asked (`Codec.RoundTrips`);
    - whatever was done to a buffer in whatever session, `harvestText` answers with the text that the harvest spells, or
      with an error of the encoding;
    - it answers as it would for what was committed exactly if the handle is the last, or there is no tail, or neither
      the harvest nor what was committed is a text;
    - a run of a new writer with `OwnTickets` leaves no tail without a live reservation. -/
theorem text_round_trips {β : Type} [Blank β] {limit : Nat} (hlimit : limit < positionLimit)
    {codec : Codec (Cells β limit)} (hcodec : codec.Faithful) (s : Session (Cells β limit)) {slot : String}
    {id : BufferId} {b : Buffer (Cells β limit)} (hslot : s.slots.find? slot = some id)
    (hfind : s.buffers.find? id = some b) :
    (Codec.utf8 : Codec Bytes).Faithful ∧ (Codec.utf16 : Codec Units16).Faithful ∧
      (∀ text : String, Store.toList (Codec.utf8.encode text : Bytes) = text.toByteArray.data.toList) ∧
      codec.RoundTrips limit ∧
      (∃ step outcome, (Command.harvestText slot codec : Command (Cells β limit) β).perform.run s = .ok step ∧
        step.value = .text outcome ∧
        (∀ text, outcome = .ok text ↔ harvestOf s id b = Store.toList (codec.encode text)) ∧
        ((∀ text, outcome ≠ .ok text) → ∃ detail, outcome = .error (.encoding detail)) ∧
        ((∀ text, outcome = .ok text ↔ b.content = Store.toList (codec.encode text)) ↔
          (s.handles id = 1 ∨ b.capacity ≤ b.valid) ∨
            ∀ text, harvestOf s id b ≠ Store.toList (codec.encode text) ∧
              b.content ≠ Store.toList (codec.encode text))) ∧
      ∀ entries : List (Entry (Cells β limit) β), Run (Buffer.writer : Logged (Buffer (Cells β limit))).value entries b →
        OwnTickets entries → EpochsFit entries → (∀ r, b.reservation = some r → r.epoch ≠ b.epoch) →
          b.capacity ≤ b.valid := by
  refine ⟨Codec.utf8_faithful, Codec.utf16_faithful, ?_, hcodec.roundTrips (roomy_cells hlimit), ?_, ?_⟩
  · intro text
    rw [← Utf8.encode_toList]
    simp [Codec.utf8, Store.toList]
  · obtain ⟨step, elements, hharvest, hvalue, helements⟩ := run_harvestText hslot hfind codec
    have hread : ∀ text, Command.readHarvest codec elements = .ok text ↔
        harvestOf s id b = Store.toList (codec.encode text) := by
      intro text
      rw [readHarvest_eq_ok_iff hcodec, helements]
    refine ⟨step, _, hharvest, hvalue, hread, ?_, reads_committed_iff hread⟩
    intro hno
    rcases readHarvest_cases codec elements with ⟨text, -, hok⟩ | ⟨flaw, -, herror⟩
    · exact absurd hok (hno text)
    · exact ⟨flaw.message, herror⟩
  · intro entries hrun hown hepochs hidle
    rw [hrun.untailed_iff new_writer hown hepochs]
    intro r hres hepoch
    exact absurd hepoch (hidle r hres)

/-- A writer has "hé" in it and a reservation behind that. With the last handle it is harvested as that text by
    `Codec.utf8`; and the text is harvested, too, after its spelling was written cut up inside the second character. -/
theorem text_round_trips_split :
    ∃ (s : Session Bytes) (step : Step (Session Bytes) Report (Reply Bytes UInt8)) (last : Buffer Bytes)
        (events : List Event),
      (Command.harvestText "a" Codec.utf8).perform.run s = .ok step ∧ step.value = .text (.ok "hé") ∧
        (Operation.performAll [.write ⟨#[0x68, 0xc3]⟩, .sync, .write ⟨#[]⟩, .writeOne 0xa9]).run
            (Buffer.writer : Logged (Buffer Bytes)).value =
          .ok ⟨[.count 2, .flag true, .count 0, .element (some 0xa9)], last, events⟩ := by
  let b : Buffer Bytes :=
    { data := ⟨#[0x68, 0xc3, 0xa9, 0x21]⟩, cursor := ⟨3, 3⟩, access := .writer, changes := 2, reservation := some ⟨2, 1⟩,
      label := "w" }
  let s : Session Bytes := ⟨⟨[(0, b)]⟩, ⟨[("a", 0)]⟩, .empty, 1⟩
  let writeSteps : List (WriteStep Bytes UInt8) := [.write ⟨#[0x68, 0xc3]⟩, .flush, .write ⟨#[]⟩, .writeOne 0xa9]
  have hslot : s.slots.find? "a" = some 0 := rfl
  have hfind : s.buffers.find? 0 = some b := rfl
  have hsole : s.handles 0 = 1 := by decide
  have hsize : Store.size (Codec.utf8.encode "hé" : Bytes) ≤ addressSpace := by decide
  have hspelling : writeSteps.flatMap (·.elements) = Store.toList (Codec.utf8.encode "hé" : Bytes) := by decide
  have hcontent : b.content = Store.toList (Codec.utf8.encode "hé" : Bytes) := by decide
  obtain ⟨-, -, -, htrips, ⟨step, outcome, hharvest, hvalue, -, -, hcommitted⟩, -⟩ :=
    text_round_trips (by decide) Codec.utf8_faithful s hslot hfind
  have houtcome := (hcommitted.mpr (.inl (.inl hsole)) "hé").mpr hcontent
  obtain ⟨last, events, hwritten, -⟩ := htrips.writes "hé" writeSteps hsize hspelling
  exact ⟨s, step, last, events, hharvest, hvalue.trans (congrArg Reply.text houtcome), hwritten⟩

/-- So it is not true that a writer without a live reservation is always read as what was committed: a ticket of a
    reader is settled by `release` with a writer of two bytes, whose reservation it makes stale, and the harvest of a
    shared handle has the two bytes of the reservation as well. -/
theorem not_every_harvest_committed :
    ¬ ∀ (commands : List (Command Bytes UInt8)) (step : Step (Session Bytes) Report (List (Reply Bytes UInt8)))
        (slot : String) (id : BufferId) (b : Buffer Bytes) (harvested : Step (Session Bytes) Report (Reply Bytes UInt8))
        (text : String),
      (Command.performAll commands).run Session.empty = .ok step → step.state.slots.find? slot = some id →
        step.state.buffers.find? id = some b → b.mode = .writing → (∀ r, b.reservation = some r → r.epoch ≠ b.epoch) →
        (Command.harvestText slot Codec.utf8).perform.run step.state = .ok harvested →
        harvested.value = .text (.ok text) → b.content = Store.toList (Codec.utf8.encode text : Bytes) := by
  intro hall
  let commands : List (Command Bytes UInt8) :=
    [.opening "out" .writer, .opening "in" (.reader ⟨#[97, 98, 99]⟩), .operation "in" (.readOne true) none,
      .operation "in" (.readOne true) none, .operation "in" .acquire (some "ticket"),
      .operation "out" (.write ⟨#[104, 105]⟩) none, .operation "out" (.reserve 2 ⟨#[33, 33]⟩) none,
      .release "out" "ticket" 0, .share "out" "other"]
  let out : Buffer Bytes :=
    { data := ⟨#[104, 105, 33, 33]⟩, cursor := ⟨2, 2⟩, access := .writer, changes := 3, reservation := some ⟨2, 2⟩,
      label := defaultLabel }
  let inn : Buffer Bytes :=
    { data := ⟨#[97, 98, 99]⟩, cursor := ⟨2, 3⟩, access := .reader, changes := 2, reservation := none,
      label := defaultLabel }
  let s : Session Bytes := ⟨⟨[(0, out), (1, inn)]⟩, ⟨[("other", 0), ("in", 1), ("out", 0)]⟩, ⟨[("ticket", ⟨2, 2, 1⟩)]⟩, 2⟩
  have hstate : ((Command.performAll commands).run Session.empty).map (·.state) = .ok s := by decide +kernel
  generalize commands = commands at hstate
  cases hrun : (Command.performAll commands).run Session.empty with
  | error fault =>
      rw [hrun] at hstate
      cases hstate
  | ok step =>
      rw [hrun] at hstate
      have hsame : step.state = s := Except.ok.inj hstate
      have hslot : s.slots.find? "out" = some 0 := rfl
      have hfind : s.buffers.find? 0 = some out := rfl
      have hshared : ¬ s.handles 0 = 1 := by decide
      have hidle : ∀ r, out.reservation = some r → r.epoch ≠ out.epoch := by
        intro r hr
        cases hr
        decide
      have hspelling : Store.toList (Codec.utf8.encode "hi!!" : Bytes) = [104, 105, 33, 33] := by decide
      obtain ⟨harvested, elements, hharvest, hvalue, helements⟩ := run_harvestText hslot hfind Codec.utf8
      have hread : Command.readHarvest Codec.utf8 elements = .ok "hi!!" := by
        rw [readHarvest_eq_ok_iff Codec.utf8_faithful, helements, harvestOf, if_neg hshared, hspelling]
        rfl
      rw [hread] at hvalue
      rw [← hsame] at hslot hfind hharvest
      have hequal := hall commands step "out" 0 out harvested "hi!!" hrun hslot hfind rfl hidle hharvest hvalue
      rw [hspelling] at hequal
      have hcommitted : out.content = [104, 105] := rfl
      rw [hcommitted] at hequal
      exact absurd hequal (by decide)

end MemStream
