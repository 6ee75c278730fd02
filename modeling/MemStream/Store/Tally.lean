import MemStream.Store.Cells

/-!
# `MemStream.Store.Tally` — a store of which only the length matters

All elements of a `Tally` are alike, so the store is nothing but their number and never runs out of room. It shows
how positions behave far beyond any length that memory could hold.

## Contents
- **Store.** `Tally` with its `Store` and `LawfulStore` instances.
-/

namespace MemStream

/-- A `count` of elements that cannot be told apart. -/
structure Tally where
  count : Nat
  deriving DecidableEq

instance : Store Tally Unit where
  blank := ()
  toList s := List.replicate s.count ()
  size s := s.count
  blanks n := ⟨n⟩
  single _ := ⟨1⟩
  slice s start count := ⟨min count (s.count - start)⟩
  append s t := ⟨s.count + t.count⟩
  head? s := if s.count = 0 then none else some ()
  accepts _ _ := true

instance : LawfulStore Tally where
  toList_inj := by
    intro ⟨s⟩ ⟨t⟩ h
    have := congrArg List.length h
    simpa [Store.toList] using this
  size_eq s := by simp [Store.size, Store.toList]
  toList_blanks n := by simp [Store.blanks, Store.toList, Store.blank]
  toList_single a := by simp [Store.single, Store.toList]
  toList_slice s start count := by simp [Store.slice, Store.toList]
  toList_append s t := by simp [Store.append, Store.toList, List.replicate_append_replicate]
  head?_eq s := by
    simp only [Store.head?, Store.toList]
    split
    · simp_all
    · obtain ⟨n, hn⟩ := Nat.exists_eq_succ_of_ne_zero (by assumption)
      simp [hn, List.replicate_succ]

/-- A `Tally` accepts every length, so no buffer over it is ever refused room. -/
@[simp] theorem Tally.accepts_eq (s : Tally) (n : Nat) : Store.accepts s n = true := rfl

end MemStream
