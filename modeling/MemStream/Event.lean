import MemStream.Refusal
import MemStream.Target

/-!
# `MemStream.Event` — what a buffer reports about itself

A buffer reports its life cycle, changes of its store and refusals. A report is a `Notice`; with the label of the
buffer it becomes an `Event`. Level, message and fields of an event follow from its notice, here and nowhere else.

## Contents
- **Reports.** `Notice`, `Event`, `Level`.
- **Wording.** `Notice.level`, `Notice.message`, `Notice.details`, and `Event.fields` with the label in front.
-/

namespace MemStream

open Text

/-- How much attention an event asks for, which `Notice.level` decides. -/
inductive Level where
  | trace
  | debug
  | warn
  deriving DecidableEq

/-- The name of a `Level`. -/
def Level.name : Level → String
  | .trace => "TRACE"
  | .debug => "DEBUG"
  | .warn => "WARN"

/-- What there is to report. Each constructor carries the values that its `details` show. -/
inductive Notice where
  /-- A buffer came to be with `length` elements. -/
  | opened (mode : Directions) (length : Nat)
  /-- A buffer was not made because of its configuration; `code` is that of the `Refusal`. -/
  | configurationRejected (mode : Directions) (code : String)
  /-- A close of `direction` took effect; `stillOpen` tells whether a side is left. -/
  | closed (direction : Directions) (stillOpen : Bool)
  /-- The last handle went away. -/
  | released
  /-- The store is about to be resized from `size` elements to `target`. -/
  | storeResizing (size target : Nat)
  /-- The store would not be resized and stays at `size` elements. -/
  | growthRefused (size target : Nat)
  /-- Elements beyond the valid ones were dropped, and `target` elements are left. -/
  | tailDropped (size target : Nat)
  /-- A write of `count` elements at `head` would end beyond the last position. -/
  | writeOverflow (head count : Nat)
  /-- A seek to `position` could not be done in `direction`. -/
  | seekRejected (position : Nat) (direction : Directions) (valid : Nat)
  /-- A seek has a `target` that is no position. -/
  | seekUnresolvable (target : Target)
  /-- A lease was settled after a change; `code` is that of the `Refusal`. -/
  | staleLease (code : String)
  /-- A lease was settled for more than it held; `code` is that of the `Refusal`. -/
  | leaseOverrun (code : String)
  /-- A wish to buffer `size` elements was ignored. -/
  | sizeHintIgnored (size : Nat) (direction : Directions)
  deriving DecidableEq

namespace Notice

/-- The `Level` of a report: `debug` for the life of a buffer, `warn` for what a caller should look at, `trace` for the
    rest. -/
def level : Notice → Level
  | .opened .. | .closed .. | .released => .debug
  | .configurationRejected .. | .growthRefused .. | .writeOverflow .. | .staleLease .. | .leaseOverrun .. => .warn
  | .storeResizing .. | .tailDropped .. | .seekRejected .. | .seekUnresolvable .. | .sizeHintIgnored .. => .trace

/-- The wording of a report; `details` has its values. -/
def message : Notice → String
  | .opened .. => "container buffer opened"
  | .configurationRejected .. => "rejected container buffer configuration"
  | .closed .. => "container buffer closed"
  | .released => "container buffer released"
  | .storeResizing .. => "resizing backing store"
  | .growthRefused .. => "backing store growth refused"
  | .tailDropped .. => "dropping uncommitted tail"
  | .writeOverflow .. => "write rejected: position overflow"
  | .seekRejected .. => "seek rejected"
  | .seekUnresolvable .. => "seek rejected: unresolvable offset"
  | .staleLease .. => "stale direct-access lease released"
  | .leaseOverrun .. => "direct-access lease overrun"
  | .sizeHintIgnored .. => "buffer size hint ignored"

/-- What a report says besides its `message`. -/
def details : Notice → List (String × String)
  | .opened mode length => [("mode", mode.text), ("len", toString length)]
  | .configurationRejected mode code => [("code", code), ("mode", mode.text)]
  | .closed direction stillOpen => [("direction", direction.text), ("open", Outline.flagText stillOpen)]
  | .released => []
  | .storeResizing size target | .growthRefused size target | .tailDropped size target =>
      [("from", toString size), ("to", toString target)]
  | .writeOverflow head count => [("head", toString head), ("count", toString count)]
  | .seekRejected position direction valid =>
      [("position", toString position), ("direction", direction.text), ("valid_size", toString valid)]
  | .seekUnresolvable target => [("target", target.outline.oneLine)]
  | .staleLease code | .leaseOverrun code => [("code", code)]
  | .sizeHintIgnored size direction => [("size", toString size), ("direction", direction.text)]

end Notice

/-- A `Notice` together with the label of the buffer it is about. -/
structure Event where
  label : String
  notice : Notice
  deriving DecidableEq

/-- The named values of an `Event`, the label before the `Notice.details`. -/
def Event.fields (e : Event) : List (String × String) :=
  ("label", e.label) :: e.notice.details

/-- A `value` together with the `events` of its making, for buffers that do not exist before. -/
structure Logged (β : Type) where
  value : β
  events : List Event
  deriving DecidableEq

end MemStream
