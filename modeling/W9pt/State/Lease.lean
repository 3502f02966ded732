import W9pt.State.Commit

/-!
# Writer fences and leases (`w9pt-fs-state/src/lease.rs`)

A lease names the current writer of a scope until its deadline; each grant takes a larger fencing
token. Time is the adapter's own and is a parameter of every check. The digest of a lease operation
is computed by BLAKE3, here the parameter `blake3`.
-/

namespace W9pt.State

open Lib

/-- Declared writer topology (contract.rs:9). -/
inductive WriterTopology where
  | serializableMultiWriter | singleFencedWriter
deriving DecidableEq

/-- Comparison of a presented fence with the current lease (lease.rs:44). -/
inductive FenceValidation where
  | current | stale | expired

/-- lease.rs:54. -/
def validateWriterFence (fs : FilesystemId) (presented : WriterFence)
    (current : Option WriterLeaseRecord) (now : LeaseDeadline) : FenceValidation :=
  match current with
  | none => .stale
  | some current =>
    if current.filesystemId ≠ fs ∨ current.scope ≠ presented.scope ∨
        current.holder ≠ presented.holder ∨ current.leaseId ≠ presented.leaseId ∨
        current.fencingToken ≠ presented.fencingToken then .stale
    else if current.deadline.ticks ≤ now.ticks then .expired
    else .current

/-- Successful grant or renewal (lease.rs:560). -/
structure WriterLeaseGrant where
  fence : WriterFence
  deadline : LeaseDeadline

/-- `grant_from_record` (lease.rs:182) and `lease_grant` (memory.rs:1075). -/
def leaseGrant (record : WriterLeaseRecord) : WriterLeaseGrant :=
  ⟨⟨record.scope, record.holder, record.leaseId, record.fencingToken⟩, record.deadline⟩

/-- Why a lease operation was not applied (lease.rs:569). -/
inductive LeaseRejection where
  | busy (grant : WriterLeaseGrant)
  | staleFence | expired | invalidWriterScope | invalidDuration | operationMismatch
  | operationHistoryFull | fencingTokenExhausted

/-! ## Requests -/

/-- Request for an absent or expired lease (lease.rs:285). -/
structure AcquireWriterLease where
  filesystemId : FilesystemId
  operationId : LeaseOperationId
  scope : WriterScopeId
  holder : WriterIncarnationId
  leaseId : LeaseId
  duration : LeaseDuration

/-- Request to extend the current lease (lease.rs:375). -/
structure RenewWriterLease where
  filesystemId : FilesystemId
  operationId : LeaseOperationId
  fence : WriterFence
  duration : LeaseDuration

/-- Request to release the current lease (lease.rs:443). -/
structure ReleaseWriterLease where
  filesystemId : FilesystemId
  operationId : LeaseOperationId
  fence : WriterFence

/-- lease.rs:510. -/
def validateDuration (duration : LeaseDuration) (limits : StateLimits) :
    Except StateLimitError Unit :=
  ensure (duration.ticks.toNat ≤ limits.maxLeaseDurationTicks)
    ⟨.leaseDuration, duration.ticks.toNat, limits.maxLeaseDurationTicks⟩

/-- The sixteen bytes of an identity. -/
def idBytes {kind : IdKind} (id : FixedId kind) : Bytes := beBytes 16 id.bits.toNat

section

variable (blake3 : Bytes → Digest)

/-- `lease_fingerprint` (lease.rs:548): domain separator, operation and operands. -/
def leaseFingerprint (domain : String) (parts : List Bytes) :
    RequestFingerprint :=
  ⟨blake3 ("w9pt-fs-state-lease-v1\x00".toUTF8.toList ++ domain.toUTF8.toList ++ parts.flatten)⟩

/-- lease.rs:525. -/
def fenceFingerprint (domain : String) (fs : FilesystemId) (operation : LeaseOperationId)
    (fence : WriterFence) (duration : UInt64) :
    RequestFingerprint :=
  leaseFingerprint blake3 domain [idBytes fs, idBytes operation, idBytes fence.scope,
    idBytes fence.holder, idBytes fence.leaseId, beBytes 8 fence.fencingToken.get.toNat,
    beBytes 8 duration.toNat]

/-- `operation_fingerprint` of an acquisition (lease.rs:358). -/
def AcquireWriterLease.operationFingerprint (r : AcquireWriterLease) :
    RequestFingerprint :=
  leaseFingerprint blake3 "acquire" [idBytes r.filesystemId, idBytes r.operationId,
    idBytes r.scope, idBytes r.holder, idBytes r.leaseId, beBytes 8 r.duration.ticks.toNat]

/-- `operation_fingerprint` of a renewal (lease.rs:430). -/
def RenewWriterLease.operationFingerprint (r : RenewWriterLease) :
    RequestFingerprint :=
  fenceFingerprint blake3 "renew" r.filesystemId r.operationId r.fence r.duration.ticks

/-- `operation_fingerprint` of a release (lease.rs:482). -/
def ReleaseWriterLease.operationFingerprint (r : ReleaseWriterLease) :
    RequestFingerprint :=
  fenceFingerprint blake3 "release" r.filesystemId r.operationId r.fence 0

end

/-! ## Transitions -/

/-- lease.rs:172. -/
def validateWriterScope (topology : WriterTopology) (scope : WriterScopeId) :
    Except LeaseRejection Unit :=
  ensure (topology ≠ .singleFencedWriter ∨ scope = .filesystem) .invalidWriterScope

/-- The larger of the current and the last granted token (`grant_writer_lease`). -/
def latestToken : Option FencingToken → Option FencingToken → Option FencingToken
  | some a, some b => if a.get ≤ b.get then some b else some a
  | some a, none => some a
  | none, b => b

/-- lease.rs:79. -/
def nextFencingToken : Option FencingToken → Except CounterOverflow FencingToken
  | some token => token.checkedNext
  | none => .ok (.one _)

/-- Another unexpired lease keeps the scope busy (`grant_writer_lease`). -/
def requireNotBusy (current : Option WriterLeaseRecord) (now : LeaseDeadline) :
    Except LeaseRejection Unit :=
  match current with
  | some current => ensure (current.deadline.ticks ≤ now.ticks) (.busy (leaseGrant current))
  | none => .ok ()

/-- lease.rs:89. -/
def grantWriterLease (request : AcquireWriterLease) (current : Option WriterLeaseRecord)
    (lastGranted : Option FencingToken) (now : LeaseDeadline) (topology : WriterTopology)
    (revision : RecordRevision) : Except LeaseRejection WriterLeaseRecord := do
  validateWriterScope topology request.scope
  requireNotBusy current now
  let token ← mapErr (fun _ => LeaseRejection.fencingTokenExhausted)
    (nextFencingToken (latestToken (current.map (·.fencingToken)) lastGranted))
  let deadline ← mapErr (fun _ => LeaseRejection.invalidDuration) (now.checkedAdd request.duration)
  return ⟨request.filesystemId, request.scope, request.holder, request.leaseId, deadline, token,
    revision⟩

/-- `validate_lease_release` (lease.rs:158); the same check starts a renewal. -/
def validateLeaseRelease (fs : FilesystemId) (fence : WriterFence)
    (current : Option WriterLeaseRecord) (now : LeaseDeadline) (topology : WriterTopology) :
    Except LeaseRejection Unit := do
  validateWriterScope topology fence.scope
  match validateWriterFence fs fence current now with
  | .current => .ok ()
  | .stale => .error .staleFence
  | .expired => .error .expired

/-- `renew_current_lease` (lease.rs:125): the deadline never moves back. -/
def renewCurrentLease (request : RenewWriterLease) (current : Option WriterLeaseRecord)
    (now : LeaseDeadline) (topology : WriterTopology) (revision : RecordRevision) :
    Except LeaseRejection WriterLeaseRecord := do
  validateLeaseRelease request.filesystemId request.fence current now topology
  let requested ← mapErr (fun _ => LeaseRejection.invalidDuration) (now.checkedAdd request.duration)
  -- the validated fence names an existing lease, so the default is never taken
  let currentDeadline := (current.map (·.deadline)).getD requested
  let deadline := if requested.ticks ≤ currentDeadline.ticks then currentDeadline else requested
  return ⟨request.filesystemId, request.fence.scope, request.fence.holder, request.fence.leaseId,
    deadline, request.fence.fencingToken, revision⟩

/-! ## Outcomes -/

/-- lease.rs:590. -/
inductive AcquireLeaseOutcome where
  | granted (grant : WriterLeaseGrant)
  | alreadyApplied (grant : WriterLeaseGrant)
  | rejected (rejection : LeaseRejection)

/-- lease.rs:601. -/
inductive RenewLeaseOutcome where
  | renewed (grant : WriterLeaseGrant)
  | alreadyApplied (grant : WriterLeaseGrant)
  | rejected (rejection : LeaseRejection)

/-- lease.rs:612. -/
inductive ReleaseLeaseOutcome where
  | released
  | alreadyApplied
  | rejected (rejection : LeaseRejection)

/-- Manual clock failure (lease.rs:254). -/
inductive ManualClockError where
  | overflow
  | wouldMoveBackward (current requested : UInt64)

end W9pt.State
