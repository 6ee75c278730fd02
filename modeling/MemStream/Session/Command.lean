import MemStream.Session.Basic

/-!
# `MemStream.Session.Command` — what can be asked of a session

A command opens a buffer into a slot, works on the buffer of a slot, or moves handles about. A command on a slot
without a handle is answered with the name of the slot and does nothing else.

## Contents
- **Commands and replies.** `Opening`, `Command`, `Reply`.
- **Performing.** `Command.perform` for one command; `Command.performAll` for a list.
-/

namespace MemStream

open StateAction Text

/-- The ways to make a buffer: a `Configuration`, or one of the two shorthands. -/
inductive Opening (σ : Type) where
  | configured (configuration : Configuration σ)
  /-- The label is changed after the making, so the report of it does not show the new one. -/
  | relabelled (configuration : Configuration σ) (label : String)
  | reader (data : σ)
  | writer

/-- A request to a session. Unless said otherwise, the first slot is the one to work on. -/
inductive Command (σ α : Type) where
  | opening (slot : String) (way : Opening σ)
  /-- Does `Operation.perform`; a granted ticket is kept under the name `keep`, if there is one. -/
  | operation (slot : String) (request : Operation σ α) (keep : Option String)
  /-- Does `Operation.perform` and withholds the answer. -/
  | silently (slot : String) (request : Operation σ α)
  /-- Settles a kept ticket by `Buffer.release`. -/
  | release (slot : String) (ticket : String) (count : Nat)
  /-- Puts another handle of the buffer into the slot `copy` (`clone`). -/
  | share (slot : String) (copy : String)
  /-- Lets go of the handle in a slot (`drop`). -/
  | drop (slot : String)
  /-- Asks whether two slots refer to the same buffer (`ptr_eq`). -/
  | compare (slot : String) (other : String)
  /-- Asks for `Session.handles` (`ref_count`). -/
  | countHandles (slot : String)
  /-- Takes the elements if no other handle shares the buffer (`try_into_collection`). -/
  | surrender (slot : String)
  /-- Takes the elements, or a copy of the store if another handle shares the buffer (`into_collection`). -/
  | harvest (slot : String)
  /-- Harvests and reads the elements as text (`into_string`). -/
  | harvestText (slot : String) (codec : Codec σ)
  | status (slot : String)
  /-- Shows the buffer on one line or indented. -/
  | inspect (slot : String) (indented : Bool)
  /-- Shows the buffer while its elements are being looked at. -/
  | inspectBusy (slot : String)
  /-- Shows the elements by `render` (`collection`). -/
  | inspectData (slot : String) (render : σ → String)

/-- What `Command.perform` answers with. -/
inductive Reply (σ α : Type) where
  | answer (value : Answer σ α)
  | done
  | noSlot (slot : String)
  | noTicket (ticket : String)
  | rejected (refusal : Refusal)
  /-- The elements, unless the buffer is shared. -/
  | surrendered (value : Option σ)
  | text (result : Except Refusal String)
  | status (buffer : Buffer σ) (handles : Nat)
  | shown (text : String)

namespace Opening

variable {σ α : Type} [Store σ α]

/-- Makes the buffer, or says why there is none. -/
def make : Opening σ → Logged (Except Refusal (Buffer σ))
  | .configured c => c.build?
  | .relabelled c label =>
      let made := c.build?
      ⟨made.value.map (·.relabel label), made.events⟩
  | .reader data =>
      let made := Buffer.reader data
      ⟨.ok made.value, made.events⟩
  | .writer =>
      let made := Buffer.writer
      ⟨.ok made.value, made.events⟩

end Opening

/-- A handle for inspection; while the elements are being looked at (`busy`), the `Buffer.outline` stays out of
    sight. -/
def Buffer.inspection {σ α : Type} [Store σ α] (b : Buffer σ) (busy : Bool) : Outline :=
  if busy then .word "ContainerBuffer(<locked>)" else .tuple "ContainerBuffer" [b.outline]

namespace Session

variable {σ α β : Type} [Store σ α]

/-- Does `work` on the buffer of `slot`, or answers `Reply.noSlot`. -/
def onSlot (slot : String) (work : BufferId → SessionAction σ (Reply σ α)) : SessionAction σ (Reply σ α) := do
  let s ← look
  match s.slots.find? slot with
  | some id => work id
  | none => pure (.noSlot slot)

/-- Performs `x` on the buffer of `slot`, `within` the session, and turns its value into the `reply`. -/
def onBuffer (slot : String) (x : BufferAction σ β) (reply : β → Reply σ α) : SessionAction σ (Reply σ α) :=
  onSlot slot fun id => do
    match ← within id x with
    | some value => pure (reply value)
    | none => pure (.noSlot slot)

/-- Keeps a `Ticket` under a name, if there are both. -/
def keepTicket : Option String → Option Ticket → SessionAction σ Unit
  | some name, some ticket => alter fun s => { s with tickets := s.tickets.insert name ticket }
  | _, _ => pure ()

/-- Takes the elements of a buffer by `Buffer.takeData`, or a copy of its store by `Buffer.dataCopy` if other handles
    share it, and empties the slot (`into_collection`). -/
def collect (slot : String) (id : BufferId) : SessionAction σ (Option σ) := do
  let s ← look
  let elements ← within id (if s.handles id = 1 then Buffer.takeData else Buffer.dataCopy)
  leave slot
  pure elements

end Session

namespace Command

open Session

variable {σ α : Type} [Store σ α]

/-- Reads harvested elements as text (`into_string`); a `Flaw` becomes the detail of `Refusal.encoding`. -/
def readHarvest (codec : Codec σ) (elements : σ) : Except Refusal String :=
  match codec.decode elements with
  | .ok text => .ok text
  | .error flaw => .error (.encoding flaw.message)

/-- Performs a `Command`. -/
def perform : Command σ α → SessionAction σ (Reply σ α)
  | .opening slot way => do
      let made : Logged (Except Refusal (Buffer σ)) := way.make
      match made.value with
      | .ok b => do
          adopt slot b made.events
          pure .done
      | .error refusal => do
          emit (made.events.map (⟨none, ·⟩))
          pure (.rejected refusal)
  | .operation slot request keep => onSlot slot fun id => do
      match ← within id request.perform with
      | some answer => do
          keepTicket keep answer.ticket?
          pure (.answer answer)
      | none => pure (.noSlot slot)
  | .silently slot request => onBuffer slot request.perform fun _ => .done
  | .release slot ticket count => onSlot slot fun _ => do
      let s ← look
      match s.tickets.find? ticket with
      | some kept => onBuffer slot (Buffer.release kept count) fun result => .answer (.settled result)
      | none => pure (.noTicket ticket)
  | .share slot copy => onSlot slot fun id => do
      enter copy id
      pure .done
  | .drop slot => onSlot slot fun _ => do
      leave slot
      pure .done
  | .compare slot other => onSlot slot fun id => onSlot other fun otherId =>
      pure (.answer (.flag (id == otherId)))
  | .countHandles slot => onSlot slot fun id => do
      let s ← look
      pure (.answer (.count (s.handles id)))
  | .surrender slot => onSlot slot fun id => do
      let s ← look
      if s.handles id = 1 then do
        let elements ← collect slot id
        pure (.surrendered elements)
      else
        pure (.surrendered none)
  | .harvest slot => onSlot slot fun id => do
      match ← collect slot id with
      | some elements => pure (.answer (.elements elements))
      | none => pure (.noSlot slot)
  | .harvestText slot codec => onSlot slot fun id => do
      match ← collect slot id with
      | some elements => pure (.text (readHarvest codec elements))
      | none => pure (.noSlot slot)
  | .status slot => onSlot slot fun id => do
      let s ← look
      onBuffer slot look fun b => .status b (s.handles id)
  | .inspect slot indented => onBuffer slot look fun b =>
      let view := b.inspection false
      .shown (if indented then view.indented else view.oneLine)
  | .inspectBusy slot => onBuffer slot look fun b => .shown (b.inspection true).oneLine
  | .inspectData slot render => onBuffer slot look fun b => .shown (render b.data)

/-- Performs commands in turn and lists their replies. -/
def performAll (commands : List (Command σ α)) : SessionAction σ (List (Reply σ α)) :=
  commands.mapM perform

@[simp] theorem performAll_nil : performAll ([] : List (Command σ α)) = pure [] := rfl

/-- A `performAll` is the `perform` of the first command and then the run of the others. -/
theorem performAll_cons (command : Command σ α) (rest : List (Command σ α)) :
    performAll (command :: rest) =
      command.perform >>= fun reply => performAll rest >>= fun replies => pure (reply :: replies) := by
  simp [performAll]

end Command

end MemStream
