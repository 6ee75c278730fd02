import MemStream.Directions
import MemStream.Text.Quoted

/-!
# `MemStream.Refusal` — what a caller can be told it did wrong

A refusal is an impossible configuration, a breach of the direct-access protocol, or a harvest that is not text. What is
part of normal use (no data, wrong direction, closed) is not refused but answered with an empty result.

## Contents
- **Causes.** `Refusal`.
- **Codes and wording.** `Refusal.code` is stable and distinct per kind of cause; `Refusal.message` holds every text;
  `Refusal.outline` shows a refusal for inspection.
- **Blame.** `Refusal.isLeaseViolation` singles out breaches of the direct-access protocol.
-/

namespace MemStream

open Text

/-- Why a request was rejected (`ContainerBufferError`). -/
inductive Refusal where
  /-- Reading and writing were both asked for. -/
  | invalidConfiguration (mode : Directions)
  /-- A lease or reservation from epoch `issued` met a buffer at epoch `current`. -/
  | staleLease (issued current : UInt64)
  /-- More elements were settled than had been granted. -/
  | leaseOverrun (requested granted : Nat)
  /-- There was no reservation to commit. -/
  | noPendingAllocation
  /-- The harvested elements are not text, for the reason given. -/
  | encoding (detail : String)
  deriving DecidableEq

namespace Refusal

/-- The stable code of the kind of `Refusal`. -/
def code : Refusal → String
  | .invalidConfiguration _ => "container_buffer.invalid_configuration"
  | .staleLease _ _ => "container_buffer.stale_lease"
  | .leaseOverrun _ _ => "container_buffer.lease_overrun"
  | .noPendingAllocation => "container_buffer.no_pending_allocation"
  | .encoding _ => "container_buffer.encoding"

/-- The wording of a `Refusal`, with the numbers it carries. -/
def message : Refusal → String
  | .invalidConfiguration mode =>
      "container buffer cannot be opened for reading and writing at once (mode: " ++ mode.text ++ ")"
  | .staleLease issued current =>
      "direct-access lease issued at epoch " ++ toString issued.toNat ++ " is stale (current epoch "
        ++ toString current.toNat ++ ")"
  | .leaseOverrun requested granted =>
      "cannot settle " ++ toString requested ++ " elements against a lease of " ++ toString granted
  | .noPendingAllocation => "commit called without a pending allocation"
  | .encoding detail => "collection is not valid text: " ++ detail

/-- The `Refusal` for inspection. -/
def outline : Refusal → Outline
  | .invalidConfiguration mode => .record "InvalidConfiguration" [("mode", mode.outline)] false
  | .staleLease issued current =>
      .record "StaleLease" [("issued", .number issued.toNat), ("current", .number current.toNat)] false
  | .leaseOverrun requested granted =>
      .record "LeaseOverrun" [("requested", .number requested), ("granted", .number granted)] false
  | .noPendingAllocation => .word "NoPendingAllocation"
  | .encoding detail => .record "Encoding" [("detail", .word (quote detail))] false

/-- Whether the caller broke the direct-access protocol: `staleLease`, `leaseOverrun` or `noPendingAllocation`. -/
def isLeaseViolation : Refusal → Bool
  | .staleLease _ _ | .leaseOverrun _ _ | .noPendingAllocation => true
  | .invalidConfiguration _ | .encoding _ => false

end Refusal

end MemStream
