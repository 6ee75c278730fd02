import MemStream.Proofs.Counting
import MemStream.Proofs.Expiry

/-!
# `MemStream.Proofs.Availability` — what the number of available elements tells

The number of available elements is a matter of positions alone: it is the distance from the head to the end of the
valid elements, whichever sides of the buffer are open. What a look gives depends on the reading side as well. So the
number is that of the elements to be had as long as the buffer can be read, and says nothing where it cannot: not in a
writer that went back, and not in a reader that was closed.

## Contents
- **Looks.** `size_upcoming_of_le`, `isSome_head?_upcoming`: what a look gives, by head, end and open sides.
- **Runs.** `available_exact`, for every buffer that can be reached.
-/

namespace MemStream

variable {σ α : Type} [Store σ α] [LawfulStore σ]

namespace Buffer

variable {b : Buffer σ}

/-- A `peek` with room for all gives all that is `available`, or nothing. -/
theorem size_upcoming_of_le (h : b.Ordered) {n : Nat} (hn : b.available ≤ n) :
    Store.size (b.upcoming n) = if b.canRead then b.available else 0 := by
  rw [size_upcoming h, Nat.min_eq_right hn]

/-- There is an element to `peekOne` at if the buffer can be read and anything is `available`. -/
theorem isSome_head?_upcoming (h : b.Ordered) :
    (Store.head? (b.upcoming 1)).isSome = true ↔ b.canRead = true ∧ 0 < b.available := by
  rw [Store.isSome_head?, ← hasNext_eq h, hasNext_iff]

end Buffer

variable {entries : List (Entry σ α)} {first last : Buffer σ}

/-- **The number of available elements.** Of every buffer, whatever was done to it before, with whatever tickets:
    - the `available` elements are those from the `head` to the end of the `valid` ones;
    - a `peek` with room for all of them and a `peekOne` change nothing, and while the buffer can be read, the first
      gives as many as are `available` and the second something exactly if any are;
    - while it cannot be read, both give nothing;
    - so the number is that of the elements to be had exactly if the buffer can be read or nothing is `available`, and
      the same goes for telling from it whether there is an element at the head. -/
theorem available_exact (hnew : first.New) (hrun : Run first entries last) {n : Nat} (hn : last.available ≤ n) :
    last.head + last.available = last.valid ∧
    ∃ copied shown, (Buffer.peek n).run last = .ok ⟨copied, last, []⟩ ∧
      Buffer.peekOne.run last = .ok ⟨shown, last, []⟩ ∧
      (last.canRead = true →
        Store.size copied = last.available ∧ (0 < last.available ↔ shown.isSome = true)) ∧
      (last.canRead = false → Store.size copied = 0 ∧ shown = none) ∧
      (Store.size copied = last.available ↔ last.canRead = true ∨ last.available = 0) ∧
      ((0 < last.available ↔ shown.isSome = true) ↔ last.canRead = true ∨ last.available = 0) := by
  have hordered := (hrun.neat hnew.neat).ordered
  have hsize := Buffer.size_upcoming_of_le hordered hn
  have hsome := Buffer.isSome_head?_upcoming hordered
  refine ⟨hordered.head_add_available, _, _, Buffer.run_peek hordered n, Buffer.run_peekOne hordered, ?_⟩
  cases hr : last.canRead with
  | true =>
      rw [hr, if_pos rfl] at hsize
      rw [hr] at hsome
      have hiff : 0 < last.available ↔ (Store.head? (last.upcoming 1)).isSome = true :=
        ⟨fun hpos => hsome.mpr ⟨rfl, hpos⟩, fun hshown => (hsome.mp hshown).2⟩
      exact ⟨fun _ => ⟨hsize, hiff⟩, nofun, ⟨fun _ => .inl rfl, fun _ => hsize⟩, ⟨fun _ => .inl rfl, fun _ => hiff⟩⟩
  | false =>
      rw [hr, if_neg Bool.false_ne_true] at hsize
      rw [hr] at hsome
      have hnone : ¬ (Store.head? (last.upcoming 1)).isSome = true := fun hshown =>
        Bool.false_ne_true (hsome.mp hshown).1
      refine ⟨nofun, fun _ => ⟨hsize, Option.not_isSome_iff_eq_none.mp hnone⟩, ?_, ?_⟩
      · rw [hsize]
        exact ⟨fun hzero => .inr hzero.symm, fun hcase => (hcase.resolve_left Bool.false_ne_true).symm⟩
      · constructor
        · intro hiff
          exact .inr (Nat.eq_zero_of_not_pos fun hpos => hnone (hiff.mp hpos))
        · intro hcase
          have hzero := hcase.resolve_left Bool.false_ne_true
          exact ⟨fun hpos => absurd hzero (Nat.ne_of_gt hpos), fun hshown => absurd hshown hnone⟩

/-- A reader of three `SmallBytes` that has read one of them has two more to show. -/
theorem available_exact_reading :
    ∃ (entries : List (Entry SmallBytes UInt8)) (first last : Buffer SmallBytes),
      first.New ∧ Run first entries last ∧ last.available = 2 ∧
        ∃ copied, (Buffer.peek 2).run last = .ok ⟨copied, last, []⟩ ∧ Store.size copied = 2 := by
  let first : Buffer SmallBytes := Buffer.start ⟨#[1, 2, 3]⟩ .reader "r"
  let last : Buffer SmallBytes := { first with cursor := ⟨1, 3⟩, changes := 1 }
  have hnew : first.New := ⟨⟨#[1, 2, 3]⟩, .reading, .reader, "r", rfl, by decide, rfl⟩
  have hread : (Operation.readOne true : Operation SmallBytes UInt8).perform.run first =
      .ok ⟨.element (some 1), last, []⟩ := by
    cbv
  have hfits : (Operation.readOne true : Operation SmallBytes UInt8).Fits := trivial
  have hrun : Run first [⟨first, .readOne true, .element (some 1), last⟩] last := .next hfits hread (.done last)
  obtain ⟨-, copied, shown, hpeek, -, hopen, -⟩ := available_exact hnew hrun (Nat.le_refl 2)
  exact ⟨_, first, last, hnew, hrun, rfl, copied, hpeek, (hopen rfl).1⟩

/-- So it is not true that the number is always that of the elements to be had, nor that it always tells whether there
    is one: a writer of two bytes that did `seekTo` the start has two `available` and none to show. -/
theorem not_every_available_shown :
    (¬ ∀ (first last : Buffer SmallBytes) (entries : List (Entry SmallBytes UInt8)) (copied : SmallBytes),
      first.New → Run first entries last → (Buffer.peek last.available).run last = .ok ⟨copied, last, []⟩ →
        Store.size copied = last.available) ∧
    (¬ ∀ (first last : Buffer SmallBytes) (entries : List (Entry SmallBytes UInt8)) (shown : Option UInt8),
      first.New → Run first entries last → Buffer.peekOne.run last = .ok ⟨shown, last, []⟩ →
        (0 < last.available ↔ shown.isSome = true)) := by
  let first : Buffer SmallBytes := Buffer.start ⟨#[1, 2]⟩ .writer "w"
  let last : Buffer SmallBytes := { first with cursor := ⟨0, 2⟩, changes := 1 }
  have hnew : first.New := ⟨⟨#[1, 2]⟩, .writing, .writer, "w", rfl, by decide, rfl⟩
  have hseek : (Operation.seekTo 0 .writing : Operation SmallBytes UInt8).perform.run first =
      .ok ⟨.position (some 0), last, []⟩ := by
    cbv
  have hfits : (Operation.seekTo 0 .writing : Operation SmallBytes UInt8).Fits := by
    show 0 < positionLimit
    decide
  have hrun : Run first [⟨first, .seekTo 0 .writing, .position (some 0), last⟩] last := .next hfits hseek (.done last)
  have hpeek : (Buffer.peek last.available).run last = .ok ⟨⟨#[]⟩, last, []⟩ := by
    cbv
  have hpeekOne : (Buffer.peekOne (σ := SmallBytes)).run last = .ok ⟨none, last, []⟩ := by
    cbv
  refine ⟨?_, ?_⟩
  · intro hall
    have hsize : Store.size (⟨#[]⟩ : SmallBytes) = last.available := hall first last _ _ hnew hrun hpeek
    revert hsize
    decide
  · intro hall
    have hshown := (hall first last _ none hnew hrun hpeekOne).mp (by decide)
    exact Bool.false_ne_true hshown

end MemStream
