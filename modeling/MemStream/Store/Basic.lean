/-!
# `MemStream.Store.Basic` — resizable sequences of elements

The elements of a buffer live in a store. What the buffer needs of it is little: a length, pieces, putting pieces
together, blanks to fill a gap, and a word on which lengths it is ready to take. Runs of elements on their way in or
out of a buffer are stores too, so a store that keeps nothing but a length can move astronomically many elements.

## Contents
- **Interface.** `Store` has the primitive operations; `LawfulStore` says what they mean through the view
  `Store.toList`.
- **Derived operations.** `Store.resize` truncates or pads with blanks, `Store.tryResize?` may refuse,
  `Store.overlay` replaces elements in place. Each has one lemma on its view and one on its size.
-/

namespace MemStream

/-- Sequences `σ` of elements `α`: what a collection behind a buffer has to offer (`len`, `as_slice`, `resize` and
    `try_resize`). A type `σ` is a kind of store; which lengths a store is ready to take is its own affair,
    `accepts`. -/
class Store (σ : Type) (α : outParam Type) where
  /-- The element that fills gaps (the default element). -/
  blank : α
  /-- All elements in order (`as_slice`). -/
  toList : σ → List α
  /-- The number of elements (`len`). -/
  size : σ → Nat
  /-- That many blanks. -/
  blanks : Nat → σ
  /-- One element. -/
  single : α → σ
  /-- The elements from a place on, at most as many as asked for. -/
  slice : σ → Nat → Nat → σ
  /-- One sequence after the other. -/
  append : σ → σ → σ
  /-- The first element. -/
  head? : σ → Option α
  /-- Whether the store is ready to take the given length, which is what `try_resize` answers. -/
  accepts : σ → Nat → Bool

/-- The operations mean what `toList` says of them, and by `toList_inj` a store has no content beyond its elements. So
    `accepts` is a function of `toList s` and the length alone: stores that differ in spare room, or with an allocator
    behind them that is asked anew each time, are described by their elements only, and one that would answer by
    anything else is outside this class. -/
class LawfulStore (σ : Type) {α : Type} [Store σ α] : Prop where
  toList_inj : ∀ {s t : σ}, Store.toList s = Store.toList t → s = t
  size_eq : ∀ s : σ, Store.size s = (Store.toList s).length
  toList_blanks : ∀ n : Nat, Store.toList (Store.blanks n : σ) = List.replicate n (Store.blank σ)
  toList_single : ∀ a : α, Store.toList (Store.single a : σ) = [a]
  toList_slice : ∀ (s : σ) (start count : Nat),
    Store.toList (Store.slice s start count) = ((Store.toList s).drop start).take count
  toList_append : ∀ s t : σ, Store.toList (Store.append s t) = Store.toList s ++ Store.toList t
  head?_eq : ∀ s : σ, Store.head? s = (Store.toList s).head?

namespace Store

attribute [simp] LawfulStore.toList_blanks LawfulStore.toList_single LawfulStore.toList_slice
  LawfulStore.toList_append

variable {σ α : Type} [Store σ α]

/-! ## Derived operations -/

/-- The store of no elements, `blanks 0`. -/
def empty : σ := blanks 0

/-- Whether `size s` is zero. -/
def isEmpty (s : σ) : Bool :=
  size s == 0

/-- The store cut off at `n`, or padded with `blanks` up to it (`resize`). -/
def resize (s : σ) (n : Nat) : σ :=
  if n ≤ size s then slice s 0 n else append s (blanks (n - size s))

/-- The store after `resize`, if it `accepts` the length (`try_resize`). -/
def tryResize? (s : σ) (n : Nat) : Option σ :=
  if accepts s n then some (resize s n) else none

/-- The store with the elements of `piece` in place of its own from `start` on. -/
def overlay (s : σ) (start : Nat) (piece : σ) : σ :=
  append (append (slice s 0 start) piece) (slice s (start + size piece) (size s))

/-- The store with the front of `piece`, as far as it fits, in place of its own front. -/
def overlayFront (s piece : σ) : σ :=
  overlay s 0 (slice piece 0 (size s))

/-! ## Their meaning -/

variable [LawfulStore σ]

theorem ext_toList {s t : σ} (h : toList s = toList t) : s = t :=
  LawfulStore.toList_inj h

@[simp] theorem length_toList (s : σ) : (toList s).length = size s :=
  (LawfulStore.size_eq s).symm

@[simp] theorem toList_empty : toList (empty : σ) = [] := by
  simp [empty]

@[simp] theorem size_empty : size (empty : σ) = 0 := by
  rw [← length_toList]; simp

@[simp] theorem size_blanks (n : Nat) : size (blanks n : σ) = n := by
  rw [← length_toList]; simp

@[simp] theorem size_single (a : α) : size (single a : σ) = 1 := by
  rw [← length_toList]; simp

@[simp] theorem size_slice (s : σ) (start count : Nat) :
    size (slice s start count) = min count (size s - start) := by
  rw [← length_toList]; simp

@[simp] theorem size_append (s t : σ) : size (append s t) = size s + size t := by
  rw [← length_toList]; simp

/-- There is a `head?` exactly where `size s` is positive. -/
theorem isSome_head? (s : σ) : (head? s).isSome = decide (0 < size s) := by
  rw [LawfulStore.head?_eq, ← length_toList]
  cases toList s with
  | nil => rfl
  | cons a rest => rfl

/-- To `resize` keeps the elements that fit and fills the rest with `blank σ`. -/
@[simp] theorem toList_resize (s : σ) (n : Nat) :
    toList (resize s n) = (toList s).take n ++ List.replicate (n - size s) (blank σ) := by
  unfold resize
  split
  · rename_i h
    simp [Nat.sub_eq_zero_of_le h]
  · rename_i h
    simp only [LawfulStore.toList_append, LawfulStore.toList_blanks]
    rw [List.take_of_length_le (by simp; omega)]

@[simp] theorem size_resize (s : σ) (n : Nat) : size (resize s n) = n := by
  rw [← length_toList, toList_resize, List.length_append, List.length_take, List.length_replicate, length_toList]
  omega

/-- To `overlay` keeps what lies before and after the piece. -/
@[simp] theorem toList_overlay (s : σ) (start : Nat) (piece : σ) :
    toList (overlay s start piece) =
      (toList s).take start ++ toList piece ++ (toList s).drop (start + size piece) := by
  simp only [overlay, LawfulStore.toList_append, LawfulStore.toList_slice, List.drop_zero]
  rw [List.take_of_length_le (l := (toList s).drop _) (by simp)]

/-- An `overlay` that ends inside the store does not change its `size`. -/
theorem size_overlay {s : σ} {start : Nat} {piece : σ} (h : start + size piece ≤ size s) :
    size (overlay s start piece) = size s := by
  rw [← length_toList, toList_overlay]
  simp
  omega

@[simp] theorem size_overlayFront (s piece : σ) : size (overlayFront s piece) = size s := by
  unfold overlayFront
  refine size_overlay ?_
  rw [size_slice]
  omega

/-- After `overlayFront`, `piece` is followed by the rest of `s`. -/
theorem toList_overlayFront {s piece : σ} (h : size piece ≤ size s) :
    toList (overlayFront s piece) = toList piece ++ (toList s).drop (size piece) := by
  have hpiece : (toList piece).take (size s) = toList piece :=
    List.take_of_length_le (by rw [length_toList]; exact h)
  unfold overlayFront
  rw [toList_overlay, size_slice, LawfulStore.toList_slice, List.drop_zero, hpiece, Nat.sub_zero, Nat.min_eq_right h,
    Nat.zero_add, List.take_zero, List.nil_append]

/-- A piece as long as `s` takes its place. -/
theorem overlayFront_eq {s piece : σ} (h : size piece = size s) : overlayFront s piece = piece := by
  have hrest : (toList s).drop (size piece) = [] := by
    apply List.drop_of_length_le
    rw [length_toList]
    exact Nat.le_of_eq h.symm
  apply ext_toList
  rw [toList_overlayFront (Nat.le_of_eq h), hrest, List.append_nil]

/-- The two ways to `append` three stores agree. -/
theorem append_assoc (r s t : σ) : append (append r s) t = append r (append s t) := by
  apply ext_toList
  simp only [LawfulStore.toList_append, List.append_assoc]

/-- To `append` nothing leaves `s` as it is. -/
theorem append_eq_self {s t : σ} (h : size t = 0) : append s t = s := by
  have hnil : toList t = [] := List.eq_nil_of_length_eq_zero (by rw [length_toList]; exact h)
  apply ext_toList
  rw [LawfulStore.toList_append, hnil, List.append_nil]

/-- The store `empty` is neutral before any other. -/
theorem empty_append (s : σ) : append empty s = s := by
  apply ext_toList
  rw [LawfulStore.toList_append, toList_empty, List.nil_append]

/-- Two `slice`s of which one follows the other are one `slice`. -/
theorem append_slice_slice (s : σ) (start k l : Nat) :
    append (slice s start k) (slice s (start + k) l) = slice s start (k + l) := by
  apply ext_toList
  simp only [LawfulStore.toList_append, LawfulStore.toList_slice]
  rw [List.take_add, List.drop_drop]

/-- Padding up to `max (size s) n` adds blanks behind the elements and cuts nothing off. -/
theorem toList_resize_max (s : σ) (n : Nat) :
    toList (resize s (max (size s) n)) = toList s ++ List.replicate (n - size s) (blank σ) := by
  rw [toList_resize, List.take_of_length_le (by rw [length_toList]; omega)]
  congr 2
  omega

/-- A `resize` to a length that is left again by the next one makes no difference. -/
theorem resize_resize (s : σ) {m n : Nat} (h : n ≤ m) : resize (resize s m) n = resize s n := by
  apply ext_toList
  rw [toList_resize, toList_resize, toList_resize, size_resize, Nat.sub_eq_zero_of_le h, List.replicate_zero,
    List.append_nil, List.take_append, List.take_take, Nat.min_eq_left h, List.take_replicate, List.length_take,
    length_toList]
  congr 2
  omega

/-- Behind a piece, `resize` can come before `overlay` or after it. -/
theorem resize_overlay {s piece : σ} {start n : Nat} (hpiece : start + size piece ≤ n) (hn : n ≤ size s) :
    resize (overlay s start piece) n = overlay (resize s n) start piece := by
  have hcut : toList (resize s n) = (toList s).take n := by
    rw [toList_resize, Nat.sub_eq_zero_of_le hn, List.replicate_zero, List.append_nil]
  have hfront : ((toList s).take start ++ toList piece).length = start + size piece := by
    rw [List.length_append, List.length_take, length_toList, length_toList]
    omega
  apply ext_toList
  rw [toList_resize, size_overlay (Nat.le_trans hpiece hn), Nat.sub_eq_zero_of_le hn, List.replicate_zero,
    List.append_nil, toList_overlay, toList_overlay, hcut, List.take_append, hfront, List.take_of_length_le (by omega),
    List.take_take, Nat.min_eq_left (by omega), List.drop_take]

/-- Two overlays, the second right behind the first, are one `overlay` of the pieces in a row. -/
theorem overlay_overlay {s : σ} {start : Nat} (hstart : start ≤ size s) (first second : σ) :
    overlay (overlay s start first) (start + size first) second = overlay s start (append first second) := by
  have hfront : ((toList s).take start ++ toList first).length = start + size first := by
    rw [List.length_append, List.length_take, length_toList, length_toList]
    omega
  have htake : (toList (overlay s start first)).take (start + size first) = (toList s).take start ++ toList first := by
    rw [toList_overlay, List.take_left' hfront]
  have hdrop : (toList (overlay s start first)).drop (start + size first + size second) =
      (toList s).drop (start + size first + size second) := by
    rw [toList_overlay, ← List.drop_drop, List.drop_left' hfront, List.drop_drop]
  apply ext_toList
  rw [toList_overlay, htake, hdrop, toList_overlay, LawfulStore.toList_append, size_append]
  simp only [List.append_assoc, Nat.add_assoc]

/-- To take a `slice` out, fill it by `overlayFront` and put it back is to `overlay` the filling in the same place. -/
theorem overlay_overlayFront_slice {s piece : σ} {start n : Nat} (hpiece : size piece ≤ n)
    (hstart : start + n ≤ size s) :
    overlay s start (overlayFront (slice s start n) piece) = overlay s start piece := by
  have hslice : size (slice s start n) = n := by
    rw [size_slice]
    omega
  -- behind the filling come the rest of the piece and what follows it, which is one stretch of the store
  have hrest : (((toList s).drop start).take n).drop (size piece) ++ (toList s).drop (start + n) =
      (toList s).drop (start + size piece) := by
    rw [← List.drop_drop, ← List.drop_drop (i := size piece), ← List.drop_append_of_le_length, List.take_append_drop]
    rw [List.length_take, List.length_drop, length_toList]
    omega
  apply ext_toList
  rw [toList_overlay, toList_overlay, size_overlayFront, hslice, toList_overlayFront (by rw [hslice]; exact hpiece),
    LawfulStore.toList_slice, List.append_assoc, List.append_assoc, List.append_assoc, hrest]

/-- A piece that starts inside or right behind the store can be laid over it without the `resize` that would make room
    first. -/
theorem overlay_resize_max (s : σ) {start : Nat} (piece : σ) (hstart : start ≤ size s) :
    overlay (resize s (max (size s) (start + size piece))) start piece = overlay s start piece := by
  have htake : (toList s ++ List.replicate (start + size piece - size s) (blank σ)).take start =
      (toList s).take start := by
    rw [List.take_append_of_le_length (by rw [length_toList]; exact hstart)]
  have hdrop : (toList s ++ List.replicate (start + size piece - size s) (blank σ)).drop (start + size piece) =
      (toList s).drop (start + size piece) := by
    rcases Nat.le_total (start + size piece) (size s) with hle | hle
    · rw [Nat.sub_eq_zero_of_le hle, List.replicate_zero, List.append_nil]
    · rw [List.drop_of_length_le (by rw [List.length_append, length_toList, List.length_replicate]; omega),
        List.drop_of_length_le (by rw [length_toList]; exact hle)]
  apply ext_toList
  rw [toList_overlay, toList_overlay, toList_resize_max, htake, hdrop]

/-- Of the first `size s` elements after an `overlay`, the piece accounts for the front of it that fits. -/
theorem take_toList_overlay (s : σ) {start : Nat} (piece : σ) (hstart : start ≤ size s) :
    (toList (overlay s start piece)).take (size s) =
      toList (overlay s start (slice piece 0 (size s - start))) := by
  have hlength : ((toList s).take start).length = start := by
    rw [List.length_take, length_toList]
    omega
  rw [toList_overlay, toList_overlay, size_slice, LawfulStore.toList_slice, List.drop_zero, Nat.sub_zero,
    List.append_assoc, List.append_assoc, List.take_append, List.take_append, List.take_of_length_le (by omega),
    hlength, length_toList]
  congr 2
  rcases Nat.le_total (start + size piece) (size s) with hle | hle
  · rw [Nat.min_eq_right (by omega), List.take_of_length_le]
    rw [List.length_drop, length_toList]
    omega
  · rw [show size s - start - size piece = 0 by omega, List.take_zero, List.drop_of_length_le]
    rw [length_toList]
    omega

/-- Of what an `overlay` leaves behind `size s`, all is the rest of the piece. -/
theorem drop_toList_overlay (s : σ) {start : Nat} (piece : σ) (hstart : start ≤ size s) :
    (toList (overlay s start piece)).drop (size s) = (toList piece).drop (size s - start) := by
  have hlength : ((toList s).take start).length = start := by
    rw [List.length_take, length_toList]
    omega
  rw [toList_overlay, List.append_assoc, List.drop_append, List.drop_append, hlength, length_toList,
    List.drop_of_length_le (by omega), List.nil_append, List.drop_drop]
  rw [List.drop_of_length_le (i := _ + _) (by rw [length_toList]; omega), List.append_nil]

end Store

end MemStream
