import W9pt.State.Validate

/-!
# Declarative commits (`w9pt-fs-state/src/commit.rs`)

A commit names the mutation it performs, the writer authority it runs under, the observations it
depends on and the changes it makes. This module has the request and everything that is checked of
it without looking at the store: `validatePreflight` (commit.rs:629-915). What the store does with
an accepted request is in `State.Apply` and `State.Memory`.

Sizes are natural numbers: the Rust code adds them with `checked_add` on `usize`, and sums of
lengths of values in memory do not reach `usize::MAX`.
-/

namespace W9pt.State

open Lib Storage

/-! ## Requests -/

/-- Exact writer authority presented by a commit (lease.rs:14). -/
structure WriterFence where
  scope : WriterScopeId
  holder : WriterIncarnationId
  leaseId : LeaseId
  fencingToken : FencingToken
deriving DecidableEq

/-- Idempotent identity and replay metadata of one mutation (commit.rs:53). -/
@[ext] structure MutationContext where
  mutationId : MutationId
  fingerprint : RequestFingerprint
  clientIncarnation : ClientIncarnationId
  retention : MutationRetention
deriving DecidableEq

/-- Observation that must still hold when the commit is serialized (commit.rs:100). -/
inductive Precondition where
  | recordAbsent (key : RecordKey)
  | recordRevision (key : RecordKey) (expected : RecordRevision)
  | inodeGeneration (inodeId : InodeId) (expected : InodeGeneration)
  | dataGeneration (inodeId : InodeId) (expected : Option DataGeneration)
  | directoryGeneration (inodeId : InodeId) (expected : DirectoryGeneration)
  | contentBase (inodeId : InodeId) (expected : BaseContentIdentity)
  | linkCount (inodeId : InodeId) (expected : UInt64)
  | openPinCount (inodeId : InodeId) (expected : UInt64)
  | filesystemPolicyGeneration (expected : UInt64)
  | exactFence (fence : WriterFence)

/-- commit.rs:163. -/
def Precondition.recordKey : Precondition → Option RecordKey
  | recordAbsent key | recordRevision key _ => some key
  | _ => none

/-- Checked adjustment of a persistent counter (commit.rs:173). -/
inductive CounterAdjustment where
  | increase (amount : NonZeroU64)
  | decrease (amount : NonZeroU64)
deriving DecidableEq

/-- commit.rs:198. -/
def CounterAdjustment.apply (adjustment : CounterAdjustment) (current : UInt64) : Option UInt64 :=
  match adjustment with
  | increase amount => checkedAdd current amount
  | decrease amount => checkedSub current amount

/-- Inode fields selected for replacement together with content (commit.rs:208). -/
structure InodeAttributeUpdate where
  mode : Option UInt32 := none
  owner : Option PrincipalId := none
  group : Option GroupId := none
  accessed : Option UnixTimestamp := none
  modified : Option UnixTimestamp := none
  changed : Option UnixTimestamp := none
  created : Option UnixTimestamp := none
deriving DecidableEq

/-- commit.rs:240. -/
def InodeAttributeUpdate.applyTimes (update : InodeAttributeUpdate) (current : InodeTimes) :
    InodeTimes where
  accessed := update.accessed.getD current.accessed
  modified := update.modified.getD current.modified
  changed := update.changed.getD current.changed
  created := update.created.getD current.created

/-- Handoff from content preparation to inode publication (commit.rs:264). -/
structure PublishContent where
  inodeId : InodeId
  expectedBase : BaseContentIdentity
  prepared : PreparedContent
  logicalSize : UInt64
  dataGeneration : DataGeneration
  inodeGeneration : InodeGeneration
  attributes : InodeAttributeUpdate
deriving DecidableEq

/-- Replacement of a wrapped-key envelope (commit.rs:283). -/
structure RewrapContentMetadata where
  contentFileId : FileId
  expectedContextId : ContentContextId
  expectedRevision : RecordRevision
  wrappedKeyBytes : Bytes
deriving DecidableEq

/-- Publication of a complete xattr staging record (commit.rs:296). -/
structure PublishXattrStaging where
  stagingId : XattrStagingId
  inodeId : InodeId
  name : XattrName
deriving DecidableEq

/-- Inconsistent content publication (commit.rs:307). -/
inductive PublishContentError where
  | notRegularFile | mutationIdMismatch | preparationBaseMismatch | authoritativeBaseMismatch
  | contentFileMismatch | contentContextMismatch | logicalSizeMismatch | dataGenerationMismatch
  | inodeGenerationMismatch | generationOverflow | invalidSelectedMode
  | limit (error : StateLimitError)

/-- One declarative state change (commit.rs:415). -/
inductive StateChange where
  | insert (key : RecordKey) (record : StateRecord)
  | replace (key : RecordKey) (record : StateRecord)
  | delete (key : RecordKey)
  | moveDirectoryEntry (sourceParentInodeId : InodeId) (sourceName : EntryName)
      (destination : DirectoryEntryRecord)
  | retainResult
  | advanceDirectoryCookie (count : NonZeroU64)
  | advanceQidPath (count : NonZeroU64)
  | bumpFilesystemPolicyGeneration
  | bumpInodeGeneration (inodeId : InodeId)
  | bumpDirectoryGeneration (inodeId : InodeId)
  | adjustLinkCount (inodeId : InodeId) (adjustment : CounterAdjustment)
  | adjustOpenPinCount (inodeId : InodeId) (adjustment : CounterAdjustment)
  | bumpLockGeneration (inodeId : InodeId) (lockId : LockId)
  | publishContent (publication : PublishContent)
  | rewrapContentMetadata (rewrap : RewrapContentMetadata)
  | publishXattrStaging (publication : PublishXattrStaging)
deriving DecidableEq

namespace StateChange

/-- commit.rs:493. -/
def primaryKey (fs : FilesystemId) : StateChange → RecordKey
  | insert key _ | replace key _ | delete key => key
  | moveDirectoryEntry parent name _ => .directoryEntry fs parent name
  | retainResult | advanceDirectoryCookie _ | advanceQidPath _ | bumpFilesystemPolicyGeneration =>
    .filesystem fs
  | bumpInodeGeneration inode | bumpDirectoryGeneration inode | adjustLinkCount inode _ =>
    .inode fs inode
  | adjustOpenPinCount inode _ => .orphan fs inode
  | bumpLockGeneration inode lock => .lock fs inode lock
  | publishContent publication => .inode fs publication.inodeId
  | rewrapContentMetadata rewrap => .contentMetadata fs rewrap.contentFileId
  | publishXattrStaging publication => .xattrStaging fs publication.stagingId

/-- commit.rs:531. -/
def affectedKeys (fs : FilesystemId) : StateChange → List RecordKey
  | moveDirectoryEntry parent name destination =>
    [.directoryEntry fs parent name,
      .directoryEntry fs destination.parentInodeId destination.name]
  | retainResult => []
  | publishXattrStaging publication =>
    [.xattrStaging fs publication.stagingId, .xattr fs publication.inodeId publication.name]
  | change => [change.primaryKey fs]

end StateChange

/-- Declarative request for one all-or-nothing transition (commit.rs:565). -/
structure CommitRequest where
  filesystemId : FilesystemId
  mutation : MutationContext
  fence : WriterFence
  preconditions : List Precondition
  changes : List StateChange
  terminalResult : MutationResult

/-! ## Outcomes -/

/-- Retained mutation result (commit.rs:1031). -/
structure CommittedMutation where
  revision : StateRevision
  result : MutationResult

/-- commit.rs:1040. -/
def CommittedMutation.fromRecord (record : MutationRecord) : CommittedMutation :=
  ⟨record.committedRevision, record.result⟩

/-- A mutation identity was reused for another request (commit.rs:1050). -/
inductive MutationMismatch where
  | mutationId | fingerprint | clientIncarnation | retention

/-- Result of the ledger lookup (commit.rs:1063). -/
inductive MutationReplay where
  | absent
  | exact (committed : CommittedMutation)
  | mismatch (mismatch : MutationMismatch)

/-- commit.rs:81. -/
def MutationContext.classifyRecord (context : MutationContext) (record : MutationRecord) :
    MutationReplay :=
  if context.mutationId ≠ record.mutationId then .mismatch .mutationId
  else if context.fingerprint ≠ record.fingerprint then .mismatch .fingerprint
  else if context.clientIncarnation ≠ record.clientIncarnation then .mismatch .clientIncarnation
  else if context.retention ≠ record.retention then .mismatch .retention
  else .exact (.fromRecord record)

/-- Why an observation did not hold (commit.rs:1074). -/
inductive CommitConflictKind where
  | recordPresent (key : RecordKey)
  | recordMissing (key : RecordKey)
  | recordRevision (key : RecordKey) (expected actual : RecordRevision)
  | inodeGeneration | dataGeneration | directoryGeneration | contentBase | linkCount | openPinCount
  | filesystemPolicyGeneration | exactFence
  | lockConflict (existing : LockId)

structure CommitConflict where
  preconditionIndex : Nat
  kind : CommitConflictKind

/-- A request rejected before any state is changed (commit.rs:1122). -/
inductive MalformedCommit where
  | limit (error : StateLimitError)
  | invalidRecord (error : RecordValidationError)
  | invalidPublication (error : PublishContentError)
  | keyOutsideFilesystem (key : RecordKey)
  | duplicateChangeTarget (key : RecordKey)
  | arithmetic
  | contentReplacementRequiresPreparedPublication
  | storeOwnedRecord (key : RecordKey)
  | protectedContentMetadata (key : RecordKey)
  | invalidContentMetadataCreation
  | invalidContentMetadataRewrap
  | emptyChanges
  | directoryCookieAllocation
  | qidPathAllocation
  | nonMonotonicTransition
  | namespaceGeneration
  | xattrPublicationRequired
  | invalidXattrStaging

/-- Semantic commit result (commit.rs:1229). An ambiguous commit names the mutation that must be
retried unchanged. -/
inductive CommitOutcome where
  | committed (committed : CommittedMutation)
  | alreadyCommitted (committed : CommittedMutation)
  | conflict (conflict : CommitConflict)
  | mutationMismatch (mismatch : MutationMismatch)
  | staleFence
  | expiredLease
  | malformedRequest (error : MalformedCommit)
  | ambiguous (mutation : MutationContext)

/-! ## Content publication -/

/-- The generation a publication must reach: one more than its base if content changed
(`validate_publish_content`). -/
def PublishContent.expectedGeneration (publication : PublishContent) :
    Except PublishContentError UInt64 :=
  if publication.prepared.contentChanged then
    okOr (checkedAdd publication.expectedBase.generation 1) .generationOverflow
  else .ok publication.expectedBase.generation

/-- commit.rs:343. -/
def validatePublishContent (publication : PublishContent) (mutation : MutationContext)
    (inode : InodeRecord) : Except PublishContentError Unit := do
  ensure (inode.kind = .regularFile) .notRegularFile
  let identity := publication.prepared.identity
  ensure (identity.mutationId = mutation.mutationId) .mutationIdMismatch
  ensure (identity.base = publication.expectedBase) .preparationBaseMismatch
  ensure (inode.contentBase = some publication.expectedBase) .authoritativeBaseMismatch
  ensure (inode.contentFileId = some publication.prepared.content.fileId) .contentFileMismatch
  ensure (publication.logicalSize = publication.prepared.content.logicalSize) .logicalSizeMismatch
  let expectedGeneration ← publication.expectedGeneration
  ensure (publication.prepared.content.generation = expectedGeneration ∧
    publication.dataGeneration.get = expectedGeneration) .dataGenerationMismatch
  let expectedInodeGeneration ←
    mapErr (fun _ => PublishContentError.generationOverflow) inode.inodeGeneration.checkedNext
  ensure (publication.inodeGeneration = expectedInodeGeneration) .inodeGenerationMismatch

/-- commit.rs:391. -/
def validatePublishContentWithMetadata (publication : PublishContent) (mutation : MutationContext)
    (inode : InodeRecord) (metadata : ContentMetadataRecord) : Except PublishContentError Unit := do
  validatePublishContent publication mutation inode
  let binding := publication.prepared.contextBinding
  ensure (inode.contentContextId = some binding.contextId ∧
    metadata.ownerInodeId = inode.inodeId ∧
    metadata.contentFileId = binding.fileId ∧
    metadata.contextId = binding.contextId ∧
    metadata.policyFormat = binding.policyFormat ∧
    metadata.policyBytes = binding.policyBytes ∧
    metadata.keyCommitment = binding.keyCommitment ∧
    metadata.revision.get = binding.contextRevision) .contentContextMismatch

/-- An optional selected value is within its bound. -/
def requireSelected {kind : BoundedKind} (selected : Option (BoundedBytes kind))
    (limits : StateLimits) : Except PublishContentError Unit :=
  match selected with
  | some value =>
    mapErr .limit (requireAtMost kind.limitKind value.bytes.length (kind.maximum limits))
  | none => .ok ()

/-- commit.rs:939. -/
def validatePublishShape (publication : PublishContent) (mutation : MutationContext)
    (limits : StateLimits) : Except PublishContentError Unit := do
  let identity := publication.prepared.identity
  ensure (identity.mutationId = mutation.mutationId) .mutationIdMismatch
  ensure (identity.base = publication.expectedBase) .preparationBaseMismatch
  ensure (publication.logicalSize = publication.prepared.content.logicalSize) .logicalSizeMismatch
  ensure (publication.dataGeneration.get = publication.prepared.content.generation)
    .dataGenerationMismatch
  ensure (∀ mode ∈ publication.attributes.mode, mode &&& ~~~0o7777 = 0) .invalidSelectedMode
  requireSelected publication.attributes.owner limits
  requireSelected publication.attributes.group limits

/-! ## Preflight -/

/-- What the loop over the changes remembers (`validate_preflight`). -/
structure TargetScan where
  targets : List RecordKey := []
  filesystemTargetSeen : Bool := false
  filesystemTargetOnlyAllocations : Bool := true
  directoryAllocationSeen : Bool := false
  qidAllocationSeen : Bool := false
  lockCount : Nat := 0
  openPinCount : Nat := 0
  xattrCount : Nat := 0

/-- At most one allocation of each kind; the flag says whether the change is one
(`validate_preflight`). -/
def scanAllocation (fs : FilesystemId) (scan : TargetScan) :
    StateChange → Except MalformedCommit (Bool × TargetScan)
  | .advanceDirectoryCookie _ => do
    ensure (scan.directoryAllocationSeen = false) (.duplicateChangeTarget (.filesystem fs))
    return (true, { scan with directoryAllocationSeen := true })
  | .advanceQidPath _ => do
    ensure (scan.qidAllocationSeen = false) (.duplicateChangeTarget (.filesystem fs))
    return (true, { scan with qidAllocationSeen := true })
  | _ => .ok (false, scan)

/-- A key may be targeted once; the filesystem header may take both allocations
(`validate_preflight`). -/
def scanTarget (allocation : Bool) (scan : TargetScan) (key : RecordKey) :
    Except MalformedCommit TargetScan :=
  if key.family = .filesystem then do
    ensure (scan.filesystemTargetSeen = false ∨
      (allocation = true ∧ scan.filesystemTargetOnlyAllocations = true))
      (.duplicateChangeTarget key)
    return { scan with
      targets := scan.targets.insert key
      filesystemTargetSeen := true
      filesystemTargetOnlyAllocations := scan.filesystemTargetOnlyAllocations && allocation }
  else do
    ensure (key ∉ scan.targets) (.duplicateChangeTarget key)
    return { scan with targets := scan.targets.insert key }

/-- Count the families with a bound of their own (`validate_preflight`). -/
def TargetScan.count (scan : TargetScan) : RecordFamily → TargetScan
  | .lock => { scan with lockCount := scan.lockCount + 1 }
  | .openPin => { scan with openPinCount := scan.openPinCount + 1 }
  | .xattr | .xattrStaging => { scan with xattrCount := scan.xattrCount + 1 }
  | _ => scan

/-- One affected key (`validate_preflight`). -/
def scanKey (limits : StateLimits) (fs : FilesystemId) (allocation : Bool) (scan : TargetScan)
    (key : RecordKey) : Except MalformedCommit TargetScan := do
  ensure (key.filesystemId = fs) (.keyOutsideFilesystem key)
  mapErr .limit (key.validateAgainstLimits limits)
  let scan ← scanTarget allocation scan key
  return scan.count key.family

/-- The ledger and the leases are written by the store only. -/
def RecordKey.storeOwned (key : RecordKey) : Bool :=
  key.family == .mutation || key.family == .writerLease

/-- A record fits its key and the limits (`validate_preflight`). -/
def validateWritten (limits : StateLimits) (key : RecordKey) (record : StateRecord) :
    Except MalformedCommit Unit := do
  mapErr .invalidRecord (record.validateKey key)
  mapErr .limit (record.validateAgainstLimits limits)
  ensure (key.storeOwned = false) (.storeOwnedRecord key)

/-- The content of a record that is an inode. -/
def StateRecord.inodeContent : StateRecord → Option ContentRef
  | inode record => record.content
  | _ => none

/-- The shape of one change (`validate_preflight`). -/
def validateChangeShape (limits : StateLimits) (fs : FilesystemId) (mutation : MutationContext) :
    StateChange → Except MalformedCommit Unit
  | .insert key record => do
    validateWritten limits key record
    ensure (record.inodeContent = none) .contentReplacementRequiresPreparedPublication
  | .replace key record => do
    validateWritten limits key record
    ensure (key.family ≠ .contentMetadata) (.protectedContentMetadata key)
  | .delete key => do
    ensure (key.storeOwned = false) (.storeOwnedRecord key)
    ensure (key.family ≠ .contentMetadata) (.protectedContentMetadata key)
  | .moveDirectoryEntry parent name destination => do
    let source := RecordKey.directoryEntry fs parent name
    let destinationKey := RecordKey.directoryEntry fs destination.parentInodeId destination.name
    mapErr .invalidRecord ((StateRecord.directoryEntry destination).validateKey destinationKey)
    mapErr .limit (source.validateAgainstLimits limits)
    mapErr .limit (destinationKey.validateAgainstLimits limits)
  | .publishContent publication =>
    mapErr .invalidPublication (validatePublishShape publication mutation limits)
  | .rewrapContentMetadata rewrap => do
    mapErr .limit (requireAtMost .wrappedContentKey rewrap.wrappedKeyBytes.length
      limits.maxWrappedContentKeyBytes)
    ensure (rewrap.wrappedKeyBytes ≠ []) .invalidContentMetadataRewrap
  | .publishXattrStaging publication =>
    mapErr .limit (requireAtMost .xattrName publication.name.bytes.length limits.maxXattrNameBytes)
  | _ => .ok ()

/-- One iteration of the loop over the changes (`validate_preflight`). -/
def scanChange (limits : StateLimits) (fs : FilesystemId) (mutation : MutationContext)
    (scan : TargetScan) (change : StateChange) : Except MalformedCommit TargetScan := do
  let (allocation, scan) ← scanAllocation fs scan change
  let scan ← (change.affectedKeys fs).foldlM (scanKey limits fs allocation) scan
  validateChangeShape limits fs mutation change
  return scan

/-- The change inserts the unpublished inode that owns the metadata (`validate_preflight`). -/
def StateChange.insertsOwner (fs : FilesystemId) (file : FileId) (metadata : ContentMetadataRecord) :
    StateChange → Bool
  | insert (.inode inodeFs inodeId) (.inode inode) =>
    inodeFs == fs && inodeId == metadata.ownerInodeId && inode.contentFileId == some file &&
      inode.contentContextId == some metadata.contextId && inode.content == none
  | _ => false

/-- The change inserts the metadata of the inode (`validate_preflight`). -/
def StateChange.insertsMetadata (fs : FilesystemId) (inodeId : InodeId) (file : FileId)
    (context : ContentContextId) : StateChange → Bool
  | insert (.contentMetadata metadataFs metadataFile) (.contentMetadata metadata) =>
    metadataFs == fs && metadataFile == file && metadata.ownerInodeId == inodeId &&
      metadata.contextId == context
  | _ => false

/-- Content metadata is inserted with its inode (`validate_preflight`). -/
def checkMetadataInserted (changes : List StateChange) : StateChange → Except MalformedCommit Unit
  | .insert (.contentMetadata fs file) (.contentMetadata metadata) =>
    ensure (changes.any (StateChange.insertsOwner fs file metadata))
      .invalidContentMetadataCreation
  | _ => .ok ()

/-- A regular inode is inserted with its content metadata (`validate_preflight`). -/
def checkInodeInserted (changes : List StateChange) : StateChange → Except MalformedCommit Unit
  | .insert (.inode fs inodeId) (.inode inode) =>
    match inode.contentFileId with
    | some file => do
      let context ← okOr inode.contentContextId .invalidContentMetadataCreation
      ensure (changes.any (StateChange.insertsMetadata fs inodeId file context))
        .invalidContentMetadataCreation
    | none => .ok ()
  | _ => .ok ()

/-- commit.rs:985. -/
def estimatePrecondition (precondition : Precondition) : Nat :=
  match precondition.recordKey with
  | some key => 64 + key.retainedBytes
  | none => 128

/-- commit.rs:994. -/
def estimateChange : StateChange → Nat
  | .insert key record | .replace key record => 64 + key.retainedBytes + record.retainedBytes
  | .delete key => 64 + key.retainedBytes
  | .moveDirectoryEntry _ name destination =>
    192 + name.bytes.length + destination.name.bytes.length
  | .retainResult => 0
  | .publishContent publication => 512 + publication.prepared.content.manifestKey.text.length +
      (publication.attributes.owner.map (·.bytes.length)).getD 0 +
      (publication.attributes.group.map (·.bytes.length)).getD 0
  | .rewrapContentMetadata rewrap => 192 + rewrap.wrappedKeyBytes.length
  | .publishXattrStaging publication => 192 + publication.name.bytes.length
  | _ => 128

namespace CommitRequest

/-- commit.rs:927. -/
def retainedBytes (request : CommitRequest) : Nat :=
  256 + request.terminalResult.bytes.length + (request.preconditions.map estimatePrecondition).sum +
    (request.changes.map estimateChange).sum

/-- A key named by a precondition (`validate_preflight`). -/
def checkPreconditionKey (limits : StateLimits) (fs : FilesystemId) (precondition : Precondition) :
    Except MalformedCommit Unit :=
  match precondition.recordKey with
  | some key => do
    ensure (key.filesystemId = fs) (.keyOutsideFilesystem key)
    mapErr .limit (key.validateAgainstLimits limits)
  | none => .ok ()

/-- commit.rs:635. -/
def validatePreflight (request : CommitRequest) (limits : StateLimits) :
    Except MalformedCommit Unit := do
  mapErr .limit (requireAtMost .preconditions request.preconditions.length limits.maxPreconditions)
  mapErr .limit (requireAtMost .changes request.changes.length limits.maxChanges)
  ensure (request.changes ≠ []) .emptyChanges
  mapErr .limit (requireAtMost .mutationResult request.terminalResult.bytes.length
    limits.maxMutationResultBytes)
  request.preconditions.forM (checkPreconditionKey limits request.filesystemId)
  let scan ← request.changes.foldlM (scanChange limits request.filesystemId request.mutation) {}
  request.changes.forM (checkMetadataInserted request.changes)
  request.changes.forM (checkInodeInserted request.changes)
  mapErr .limit (requireAtMost .changeKeys (scan.targets.length + 1) limits.maxChangeKeys)
  mapErr .limit (requireAtMost .locks scan.lockCount limits.maxLocksPerRequest)
  mapErr .limit (requireAtMost .openPins scan.openPinCount limits.maxOpenPinsPerRequest)
  mapErr .limit (requireAtMost .xattrs scan.xattrCount limits.maxXattrsPerRequest)
  mapErr .limit (requireAtMost .transactionBytes request.retainedBytes limits.maxTransactionBytes)

end CommitRequest

/-! ## What an accepted request satisfies -/

section Preflight

variable {limits : StateLimits} {request : CommitRequest} {change : StateChange} {key : RecordKey}

theorem scanKey_filesystem {fs : FilesystemId} {allocation : Bool} {s t : TargetScan}
    (h : scanKey limits fs allocation s key = .ok t) : key.filesystemId = fs := by
  simp only [scanKey, bind_eq_ok, ensure_eq_ok] at h
  exact h.choose_spec.1

section

variable (h : request.validatePreflight limits = .ok ())

include h

/-- Each change of an accepted request passed its iteration of the loop. -/
theorem CommitRequest.scanned (hc : change ∈ request.changes) :
    ∃ s t, scanChange limits request.filesystemId request.mutation s change = .ok t := by
  simp only [validatePreflight, bind_eq_ok] at h
  obtain ⟨_, -, _, -, _, -, _, -, _, -, scan, hscan, -⟩ := h
  exact foldlM_ok_forall hscan change hc

theorem CommitRequest.shape (hc : change ∈ request.changes) :
    validateChangeShape limits request.filesystemId request.mutation change = .ok () := by
  obtain ⟨s, t, hst⟩ := scanned h hc
  simp only [scanChange, bind_eq_ok] at hst
  obtain ⟨_, -, _, -, _, hshape, -⟩ := hst
  exact hshape

/-- A request touches its own filesystem only. -/
theorem CommitRequest.affected_filesystem (hc : change ∈ request.changes)
    (hk : key ∈ change.affectedKeys request.filesystemId) :
    key.filesystemId = request.filesystemId := by
  obtain ⟨s, t, hst⟩ := scanned h hc
  simp only [scanChange, bind_eq_ok] at hst
  obtain ⟨_, -, _, hkeys, -⟩ := hst
  obtain ⟨_, _, hkey⟩ := foldlM_ok_forall hkeys key hk
  exact scanKey_filesystem hkey

end

theorem validateWritten_storeOwned {record : StateRecord}
    (h : validateWritten limits key record = .ok ()) : key.storeOwned = false := by
  simp only [validateWritten, bind_eq_ok, ensure_eq_ok] at h
  obtain ⟨_, -, _, -, howned⟩ := h
  exact howned

/-- A request touches neither the ledger nor the leases. -/
theorem CommitRequest.affected_storeOwned (h : request.validatePreflight limits = .ok ())
    (hc : change ∈ request.changes) (hk : key ∈ change.affectedKeys request.filesystemId) :
    key.storeOwned = false := by
  have hshape := shape h hc
  cases change with
  | insert key' record =>
    simp only [validateChangeShape, bind_eq_ok] at hshape
    obtain rfl := List.mem_singleton.1 hk
    exact validateWritten_storeOwned hshape.choose_spec.1
  | replace key' record =>
    simp only [validateChangeShape, bind_eq_ok] at hshape
    obtain rfl := List.mem_singleton.1 hk
    exact validateWritten_storeOwned hshape.choose_spec.1
  | delete key' =>
    simp only [validateChangeShape, bind_eq_ok, ensure_eq_ok] at hshape
    obtain rfl := List.mem_singleton.1 hk
    exact hshape.choose_spec.1
  -- the keys of the other changes are built from their families
  | moveDirectoryEntry | publishXattrStaging =>
    simp only [StateChange.affectedKeys, List.mem_cons, List.not_mem_nil, or_false] at hk
    rcases hk with rfl | rfl <;> rfl
  | retainResult => cases hk
  | _ =>
    obtain rfl := List.mem_singleton.1 hk
    rfl

end Preflight

end W9pt.State
