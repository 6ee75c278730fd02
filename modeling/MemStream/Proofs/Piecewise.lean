import MemStream.Proofs.InPlace
import MemStream.Proofs.RoundTrip

/-!
# `MemStream.Proofs.Piecewise` — writing in pieces

A sequence can be written at once, or cut into pieces that are written one after the other: many elements or one at a
time, all of them insisted on or not, with writes of nothing and flushes in between. Where the one write goes through,
so does every piece, and what is left looks the same. The first piece drops the tail, as the one write does; from then
on the store grows from piece to piece, and each piece lies right behind the one before.

## Contents
- **Pieces.** `Piece`.
- **Two pieces.** `Buffer.alike_written_append`; `Buffer.yields_rest` for the room that is left, where a store takes in
  steps what it takes at once (`Store.TakesInSteps`).
- **Pieces that may be empty.** `Buffer.taking`, `Buffer.Fitting`; `Buffer.alike_taking_append`.
- **Any number of pieces.** `Buffer.perform_piece`, `Buffer.performAll_pieces`.
- **Runs.** `written_in_pieces`.
-/

namespace MemStream

open StateAction

/-! ## Pieces -/

/-- A piece of a sequence that is written out: a `WriteStep`, or a `writeAll` of several elements. -/
inductive Piece (σ α : Type) where
  /-- One element, several or none, as a write takes them, or a flush. -/
  | step (writeStep : WriteStep σ α)
  /-- Elements that are written on until none is left. -/
  | all (elements : σ)

namespace Piece

variable {σ α : Type} [Store σ α]

/-- The `Operation` that writes the piece. -/
def operation : Piece σ α → Operation σ α
  | step writeStep => writeStep.operation
  | all elements => .writeAll elements

/-- The `Answer` to the piece if it goes through in full. -/
def success : Piece σ α → Answer σ α
  | step writeStep => writeStep.success
  | all _ => .stored (.ok ())

/-- The elements of the piece as a store `σ`. -/
def stored : Piece σ α → σ
  | step (.write elements) => elements
  | step (.writeOne element) => Store.single element
  | step .flush => Store.empty
  | all elements => elements

/-- The elements of the piece, `stored` as a list. -/
def elements (piece : Piece σ α) : List α :=
  Store.toList piece.stored

end Piece

namespace Buffer

variable {σ α : Type} [Store σ α] [LawfulStore σ] {b : Buffer σ}

/-! ## Two pieces -/

/-- To write one sequence and then another leaves what is `Alike` to having written both at once, put together by
    `Store.append`. -/
theorem alike_written_append (h : b.Ordered) (hw : b.canWrite = true) {first : σ}
    (hlimit : b.head + Store.size first < positionLimit) (second : σ) :
    (b.written (Store.append first second)).Alike ((b.written first).written second) := by
  have hw' : (b.written first).canWrite = true := (canWrite_written b first).trans hw
  -- the first write leaves no tail that the second could drop
  have htrimmed : (b.written first).trimmed = b.written first :=
    trimmed_eq_self _ (Nat.le_of_eq (capacity_written h hw first))
  refine ⟨?_, ?_, ?_, ?_, ?_⟩
  · rw [head_written, head_written, head_written, Store.size_append, Nat.add_assoc]
  · rw [valid_written second hw', valid_written first hw, valid_written _ hw, head_written, Store.size_append]
    omega
  · rw [data_written (h.written hw hlimit), htrimmed, data_written h, data_written h, head_written,
      Store.overlay_overlay (head_le_size_trimmed h)]
  · rw [canRead_written, canRead_written, canRead_written]
  · rw [canWrite_written, canWrite_written, canWrite_written]

/-- Where there is room for a sequence and more, there is room for the rest when the sequence has been `written`, if the
    store `TakesInSteps`. -/
theorem yields_rest (hsteps : Store.TakesInSteps σ) {first : σ} {n : Nat}
    (hyields : b.yields (b.reach? (Store.size first + n)) = true) :
    (b.written first).yields ((b.written first).reach? n) = true := by
  obtain ⟨hw, hlimit⟩ := canWrite_of_yields hyields
  rw [← Nat.add_assoc] at hlimit
  have hw' : (b.written first).canWrite = true := (canWrite_written b first).trans hw
  have hreach : b.reach? (Store.size first + n) = some (b.head + (Store.size first + n)) :=
    if_pos ⟨hw, by omega⟩
  have hreach' : (b.written first).reach? n = some (b.head + Store.size first + n) := if_pos ⟨hw', hlimit⟩
  rw [hreach] at hyields
  rw [hreach']
  simp only [yields_some, reaches, Bool.or_eq_true, decide_eq_true_eq, ← Nat.add_assoc] at hyields ⊢
  have hvalid := valid_written first hw
  by_cases hinside : b.head + Store.size first + n ≤ (b.written first).valid
  · exact .inl hinside
  · have haccepts := hyields.resolve_left (by omega)
    refine .inr (hsteps _ _ _ _ ?_ ?_ (Nat.le_refl _) haccepts)
    · rw [Store.size_resize, Store.size_resize]
      omega
    · rw [Store.size_resize]
      omega

/-! ## Pieces that may be empty -/

/-- What is left when a sequence has been `written`, which nothing is done for if it is empty. -/
def taking (b : Buffer σ) (elements : σ) : Buffer σ :=
  if Store.size elements = 0 then b else b.written elements

omit [LawfulStore σ] in
theorem taking_of_empty {elements : σ} (h : Store.size elements = 0) : b.taking elements = b :=
  if_pos h

omit [LawfulStore σ] in
theorem taking_of_nonempty {elements : σ} (h : Store.size elements ≠ 0) : b.taking elements = b.written elements :=
  if_neg h

/-- There is room for a sequence (`Buffer.yields`), or none is needed. -/
def Fitting (b : Buffer σ) (elements : σ) : Prop :=
  Store.size elements = 0 ∨ b.yields (b.reach? (Store.size elements)) = true

section Taking

variable {first second : σ}

/-- A buffer that has taken what is `Fitting` is `Ordered`. -/
theorem Fitting.ordered (h : b.Ordered) (hfits : b.Fitting first) : (b.taking first).Ordered := by
  unfold taking
  split
  · exact h
  · next hsome =>
      obtain ⟨hw, hlimit⟩ := canWrite_of_yields (hfits.resolve_left hsome)
      exact h.written hw hlimit

/-- Room for two sequences in a row is room for the `first` of them. -/
theorem Fitting.left (hsteps : Store.TakesInSteps σ) (hfits : b.Fitting (Store.append first second)) :
    b.Fitting first := by
  unfold Fitting at hfits ⊢
  rw [Store.size_append] at hfits
  rcases hfits with hzero | hyields
  · exact .inl (by omega)
  · exact .inr (yields_reach?_of_le hsteps.takesLess (Nat.le_add_right _ _) hyields)

/-- Room for two sequences in a row is room for the `second` when the `first` has been taken, by `yields_rest`. -/
theorem Fitting.right (hsteps : Store.TakesInSteps σ) (hfits : b.Fitting (Store.append first second)) :
    (b.taking first).Fitting second := by
  unfold Fitting at hfits ⊢
  rw [Store.size_append] at hfits
  rcases hfits with hzero | hyields
  · exact .inl (by omega)
  · by_cases hfirst : Store.size first = 0
    · rw [hfirst, Nat.zero_add] at hyields
      rw [taking_of_empty hfirst]
      exact .inr hyields
    · rw [taking_of_nonempty hfirst]
      exact .inr (yields_rest hsteps hyields)

/-- The same as `alike_written_append` with `taking` for `written`, so with sequences that may be empty. -/
theorem alike_taking_append (h : b.Ordered) (hfits : b.Fitting (Store.append first second)) :
    (b.taking (Store.append first second)).Alike ((b.taking first).taking second) := by
  by_cases hsecond : Store.size second = 0
  · rw [taking_of_empty hsecond, Store.append_eq_self hsecond]
    exact .refl _
  by_cases hfirst : Store.size first = 0
  · have hempty : first = Store.empty := by
      apply Store.ext_toList
      rw [Store.toList_empty]
      exact List.eq_nil_of_length_eq_zero (by rw [Store.length_toList]; exact hfirst)
    rw [taking_of_empty hfirst, hempty, Store.empty_append]
    exact .refl _
  · have hboth : Store.size (Store.append first second) ≠ 0 := by
      rw [Store.size_append]
      omega
    obtain ⟨hw, hlimit⟩ := canWrite_of_yields (hfits.resolve_left hboth)
    rw [Store.size_append] at hlimit
    rw [taking_of_nonempty hboth, taking_of_nonempty hfirst, taking_of_nonempty hsecond]
    exact alike_written_append h hw (by omega) second

end Taking

/-! ## Any number of pieces -/

theorem run_write_fitting (h : b.Ordered) {elements : σ} (hfits : b.Fitting elements) :
    ∃ events, (write elements).run b = .ok ⟨Store.size elements, b.taking elements, events⟩ := by
  obtain ⟨events, hrun⟩ := run_write_yields h elements
  by_cases hzero : Store.size elements = 0
  · rw [run_write h, if_neg fun hgo => Nat.ne_of_gt hgo.2 hzero, taking_of_empty hzero, hzero]
    exact ⟨_, rfl⟩
  · have hplace : (Operation.write elements : Operation σ α).place? b = b.reach? (Store.size elements) :=
      if_pos (Nat.pos_of_ne_zero hzero)
    rw [hplace, if_pos (hfits.resolve_left hzero)] at hrun
    rw [taking_of_nonempty hzero]
    exact ⟨events, hrun⟩

/-- A piece that is `Fitting` goes through in full. -/
theorem perform_piece (h : b.Ordered) (piece : Piece σ α) (hfits : b.Fitting piece.stored) :
    ∃ events, piece.operation.perform.run b = .ok ⟨piece.success, b.taking piece.stored, events⟩ := by
  obtain ⟨events, hrun⟩ := run_write_fitting h hfits
  cases piece with
  | step writeStep =>
      cases writeStep with
      | write elements => exact ⟨events, run_answer hrun Answer.count⟩
      | writeOne element =>
          have hsingle : (write (Store.single element : σ)).run b =
              .ok ⟨1, b.taking (Store.single element), events⟩ := Store.size_single (σ := σ) element ▸ hrun
          have hone : (writeOne (σ := σ) element).run b =
              .ok ⟨some element, b.taking (Store.single element), events⟩ := by
            rw [run_writeOne, hsingle]
            rfl
          exact ⟨events, run_answer hone Answer.element⟩
      | flush =>
          have hstay : b.taking (Store.empty : σ) = b := taking_of_empty Store.size_empty
          refine ⟨[], ?_⟩
          show _ = Except.ok (⟨_, b.taking (Store.empty : σ), []⟩ : Step (Buffer σ) Event (Answer σ α))
          rw [hstay]
          rfl
  | all elements =>
      have hall := run_writeAll h elements
      by_cases hzero : Store.size elements = 0
      · rw [if_pos hzero] at hall
        refine ⟨[], ?_⟩
        show _ = Except.ok (⟨_, b.taking elements, []⟩ : Step (Buffer σ) Event (Answer σ α))
        rw [taking_of_empty hzero]
        exact run_answer hall Answer.stored
      · have hwrite : (write elements).run b = .ok ⟨Store.size elements, b.taking elements, events⟩ := hrun
        rw [if_neg hzero, hwrite] at hall
        simp only [Except.map, if_neg hzero] at hall
        exact ⟨events, run_answer hall Answer.stored⟩

/-- Pieces that make up a sequence that is `Fitting` go through, by induction on `pieces`, and leave what is `Alike` to
    `taking` the sequence. -/
theorem performAll_pieces (hsteps : Store.TakesInSteps σ) (h : b.Ordered) {pieces : List (Piece σ α)} {src : σ}
    (hpieces : pieces.flatMap (·.elements) = Store.toList src) (hfits : b.Fitting src) :
    ∃ c events, (Operation.performAll (pieces.map (·.operation))).run b = .ok ⟨pieces.map (·.success), c, events⟩ ∧
      (b.taking src).Alike c := by
  -- the first piece is the front of the sequence, and the others make up the rest
  induction pieces generalizing b src with
  | nil =>
      have hzero : Store.size src = 0 := by
        rw [← Store.length_toList, ← hpieces]
        rfl
      rw [taking_of_empty hzero]
      exact ⟨b, [], rfl, .refl b⟩
  | cons piece pieces ih =>
      rw [List.flatMap_cons] at hpieces
      let rest := Store.slice src (Store.size piece.stored) (Store.size src)
      have hrest : pieces.flatMap (·.elements) = Store.toList rest := by
        have hfront : piece.elements.length = Store.size piece.stored := Store.length_toList piece.stored
        rw [LawfulStore.toList_slice, ← hpieces, List.drop_left' hfront, List.take_of_length_le]
        rw [← Store.length_toList src, ← hpieces, List.length_append]
        exact Nat.le_add_left _ _
      have hsrc : src = Store.append piece.stored rest := by
        apply Store.ext_toList
        rw [LawfulStore.toList_append, ← hrest, ← hpieces]
        rfl
      rw [hsrc] at hfits ⊢
      obtain ⟨events, hrun⟩ := perform_piece h piece (hfits.left hsteps)
      obtain ⟨c, later, hperform, halike⟩ := ih ((hfits.left hsteps).ordered h) hrest (hfits.right hsteps)
      refine ⟨c, events ++ later, ?_, (alike_taking_append h hfits).trans halike⟩
      rw [List.map_cons, Operation.performAll_cons, run_bind_of_run hrun, bind_pure_comp, run_map, hperform]
      rfl

end Buffer

/-! ## Runs -/

section Runs

variable {σ α : Type} [Store σ α] [LawfulStore σ] {entries : List (Entry σ α)} {first last : Buffer σ}

/-- **It does not matter in what pieces a sequence is written.** Whatever was done to a new buffer, with whatever
    tickets and however often the epochs have come round: where one `write` takes a sequence that is not empty, and the
    sequence is cut into `pieces` in any way, to be written as they are, element by element or until nothing is left,
    with writes of nothing and flushes in between, then every `Piece` is taken in full, and head, valid elements, store
    and open sides are in the end what they are after the one `write`. The store must be one that `TakesInSteps` what it
    takes at once. -/
theorem written_in_pieces (hsteps : Store.TakesInSteps σ) (hnew : first.New) (hrun : Run first entries last) {src : σ}
    (hsome : 0 < Store.size src) {written : Step (Buffer σ) Event (Answer σ α)}
    (hwrite : (Operation.write src).perform.run last = .ok written) (hall : written.value = .count (Store.size src))
    {pieces : List (Piece σ α)} (hpieces : pieces.flatMap (·.elements) = Store.toList src) :
    ∃ after events,
      (Operation.performAll (pieces.map (·.operation))).run last = .ok ⟨pieces.map (·.success), after, events⟩ ∧
        written.state.Alike after := by
  have h := (hrun.neat hnew.neat).ordered
  obtain ⟨taken, htaken, rfl⟩ := Buffer.value_of_answer hwrite
  have hcount : taken.value = Store.size src := Answer.count.inj hall
  have hplace : (Operation.write src : Operation σ α).place? last = last.reach? (Store.size src) := if_pos hsome
  obtain ⟨events, hyields⟩ := Buffer.run_write_yields h src
  rw [hplace, htaken] at hyields
  -- a write that is taken in full had room
  have hroom : last.yields (last.reach? (Store.size src)) = true := by
    by_contra hno
    rw [if_neg hno] at hyields
    cases hyields
    exact Nat.ne_of_lt hsome hcount
  rw [if_pos hroom] at hyields
  cases hyields
  obtain ⟨after, later, hperform, halike⟩ := Buffer.performAll_pieces hsteps h hpieces (.inr hroom)
  rw [Buffer.taking_of_nonempty (Nat.ne_of_gt hsome)] at halike
  exact ⟨after, later, hperform, halike⟩

end Runs

/-- A writer whose reservation has a tail (`Buffer.overhanging`) is given five bytes in four pieces, one of them empty,
    and a flush. It looks as if it had been given all five at once. -/
theorem written_in_pieces_overhanging :
    ∃ (first : Buffer SmallBytes) (entries : List (Entry SmallBytes UInt8))
        (written : Step (Buffer SmallBytes) Event (Answer SmallBytes UInt8)) (after : Buffer SmallBytes)
        (events : List Event),
      first.New ∧ Run first entries .overhanging ∧
        (Operation.write ⟨#[3, 4, 5, 6, 7]⟩).perform.run .overhanging = .ok written ∧ written.value = .count 5 ∧
        (Operation.performAll [.write ⟨#[3, 4]⟩, .writeOne 5, .sync, .write ⟨#[]⟩, .writeAll ⟨#[6, 7]⟩]).run
            .overhanging =
          .ok ⟨[.count 2, .element (some 5), .flag true, .count 0, .stored (.ok ())], after, events⟩ ∧
        written.state.Alike after := by
  obtain ⟨first, entries, hnew, hrun, -, -⟩ := run_overhanging
  have hwrite : (Operation.write ⟨#[3, 4, 5, 6, 7]⟩ : Operation SmallBytes UInt8).perform.run .overhanging =
      .ok ⟨.count 5, Buffer.overhanging.written ⟨#[3, 4, 5, 6, 7]⟩,
        [⟨"w", .tailDropped 5 2⟩, ⟨"w", .storeResizing 2 7⟩]⟩ := by
    cbv
  let pieces : List (Piece SmallBytes UInt8) :=
    [.step (.write ⟨#[3, 4]⟩), .step (.writeOne 5), .step .flush, .step (.write ⟨#[]⟩), .all ⟨#[6, 7]⟩]
  have hpieces : pieces.flatMap (·.elements) = Store.toList (⟨#[3, 4, 5, 6, 7]⟩ : SmallBytes) := rfl
  obtain ⟨after, events, hperform, halike⟩ :=
    written_in_pieces Store.growsTo_cells.takesInSteps hnew hrun (by decide) hwrite rfl hpieces
  exact ⟨first, entries, _, after, events, hnew, hrun, hwrite, rfl, hperform, halike⟩

end MemStream
