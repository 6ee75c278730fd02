import MemStream.Buffer.Basic

/-!
# `MemStream.Buffer.Open` — making a buffer

A buffer is made over a store that may already have elements, all of them valid. Reading starts at the first element
and writing behind the last. The making is reported, and so is a configuration that is rejected, in which case no
buffer comes to be.

## Contents
- **Making.** `Buffer.start` is the state, `Buffer.opened` the report; `Buffer.open?` checks the mode first, while
  `Buffer.reader` and `Buffer.writer` need no check.
- **Configuration.** `Configuration` gathers what can be chosen, with what is chosen where nothing is said.
-/

namespace MemStream

/-- The `label` of a buffer that was given none. -/
def defaultLabel : String := "container"

namespace Buffer

variable {σ α : Type} [Store σ α]

/-- A new buffer over `data`, with every element valid and the head where its `access` wants it. -/
def start (data : σ) (access : Access) (label : String) : Buffer σ :=
  { data
    cursor := ⟨if access.mode.reads then 0 else Store.size data, Store.size data⟩
    access
    changes := 0
    reservation := none
    label }

/-- A new buffer, `start`, and the report of its making. -/
def opened (data : σ) (access : Access) (label : String) : Logged (Buffer σ) :=
  ⟨start data access label, [⟨label, .opened access.mode (Store.size data)⟩]⟩

/-- A new buffer of the given mode, or the reason of `Access.ofMode?` why there is none (`from_collection`, and `new`
    over no data). -/
def open? (data : σ) (mode : Directions) (label : String) : Logged (Except Refusal (Buffer σ)) :=
  match Access.ofMode? mode with
  | .ok access =>
      let made := opened data access label
      ⟨.ok made.value, made.events⟩
  | .error refusal => ⟨.error refusal, [⟨label, .configurationRejected mode refusal.code⟩]⟩

/-- A new buffer for reading (`reader`). -/
def reader (data : σ) : Logged (Buffer σ) :=
  opened data .reader defaultLabel

/-- A new, empty buffer for writing (`writer`). -/
def writer : Logged (Buffer σ) :=
  opened Store.empty .writer defaultLabel

end Buffer

/-! ## Configuration -/

/-- What can be chosen for a new buffer (`ContainerBufferBuilder`), less the hint `reserve`: a wish for spare room
    behind the elements, which a store may ignore and which shows in neither its elements nor its length. A
    `LawfulStore` has no content beyond its elements, so there is nothing here for the hint to change. -/
structure Configuration (σ : Type) where
  mode : Directions := .writing
  data : Option σ := none
  label : String := defaultLabel

/-- Makes the buffer by `Buffer.open?`; without data it starts empty (`build_core`, `build`). -/
def Configuration.build? {σ α : Type} [Store σ α] (c : Configuration σ) : Logged (Except Refusal (Buffer σ)) :=
  Buffer.open? (c.data.getD Store.empty) c.mode c.label

end MemStream
