import W9pt.State.Commit

/-!
# Evaluating and applying a commit (`testing/memory.rs:1148-1918`)

The parts of `commit_request` that look at the records: the preconditions, the four transition
validators and the staged application of one change.
-/

namespace W9pt.State

open Lib Storage

/-! ## Preconditions -/

/-- The inode observed by a precondition satisfies `test`, else the conflict. -/
def inodeConflict (records : RecordMap) (fs : FilesystemId) (inodeId : InodeId)
    (test : InodeRecord → Bool) (kind : CommitConflictKind) : Option CommitConflictKind :=
  match records[RecordKey.inode fs inodeId]? with
  | some (.inode inode) => if test inode then none else some kind
  | _ => some kind

/-- The body of the loop of `evaluate_preconditions`. -/
def Precondition.conflict (records : RecordMap) (fs : FilesystemId) (fence : WriterFence) :
    Precondition → Option CommitConflictKind
  | recordAbsent key => if key ∈ records then some (.recordPresent key) else none
  | recordRevision key expected =>
    match records[key]? with
    | none => some (.recordMissing key)
    | some record =>
      if record.revision ≠ expected then some (.recordRevision key expected record.revision)
      else none
  | inodeGeneration inode expected =>
    inodeConflict records fs inode (·.inodeGeneration == expected) .inodeGeneration
  | dataGeneration inode expected =>
    inodeConflict records fs inode (·.dataGeneration == expected) .dataGeneration
  | directoryGeneration inode expected =>
    inodeConflict records fs inode (·.directoryGeneration == some expected) .directoryGeneration
  | contentBase inode expected =>
    inodeConflict records fs inode (·.contentBase == some expected) .contentBase
  | linkCount inode expected =>
    inodeConflict records fs inode (·.linkCount == expected) .linkCount
  | openPinCount inode expected =>
    if pinCount records fs inode = expected.toNat then none else some .openPinCount
  | filesystemPolicyGeneration expected =>
    match records[RecordKey.filesystem fs]? with
    | some (.filesystem filesystem) =>
      if filesystem.policyGeneration = expected then none else some .filesystemPolicyGeneration
    | _ => some .filesystemPolicyGeneration
  | exactFence presented => if presented ≠ fence then some .exactFence else none

/-- The loop of `evaluate_preconditions`: the first conflict, with its position. -/
def firstConflict (records : RecordMap) (fs : FilesystemId) (fence : WriterFence) (index : Nat) :
    List Precondition → Option CommitConflict
  | [] => none
  | precondition :: rest =>
    match precondition.conflict records fs fence with
    | some kind => some ⟨index, kind⟩
    | none => firstConflict records fs fence (index + 1) rest

/-- memory.rs:1148. -/
def evaluatePreconditions (records : RecordMap) (request : CommitRequest) : Option CommitConflict :=
  firstConflict records request.filesystemId request.fence 0 request.preconditions

/-! ## Transition validators -/

/-- The entry a change removes from its key, by deletion or by moving it away
(`validate_directory_cookie_transition`). -/
def StateChange.removedEntry (records : RecordMap) (fs : FilesystemId) :
    StateChange → Option DirectoryEntryRecord
  | delete key =>
    match records[key]? with
    | some (.directoryEntry entry) => some entry
    | _ => none
  | moveDirectoryEntry parent name _ =>
    match records[RecordKey.directoryEntry fs parent name]? with
    | some (.directoryEntry entry) => some entry
    | _ => none
  | _ => none

/-- Allocation counters of a transition: the next value, how many were used and how many the
request declared. -/
structure Allocation (α : Type) where
  next : α
  allocations : UInt64 := 0
  declared : UInt64 := 0

/-- `allocations` moves by one when `next` was taken (`validate_directory_cookie_transition`). -/
def Allocation.take {α : Type} (a : Allocation α) (next : Except CounterOverflow α) :
    Except MalformedCommit (Allocation α) := do
  let next ← mapErr (fun _ => MalformedCommit.arithmetic) next
  let allocations ← okOr (checkedAdd a.allocations 1) .arithmetic
  return { a with next, allocations }

/-- `declared` moves by the advance of the request. -/
def Allocation.declare {α : Type} (a : Allocation α) (count : NonZeroU64) :
    Except MalformedCommit (Allocation α) := do
  let declared ← okOr (checkedAdd a.declared count) .arithmetic
  return { a with declared }

section

variable (records : RecordMap)

/-- One iteration of `validate_directory_cookie_transition`: a new entry takes
the next cookie unless it carries the cookie of an entry removed by the same request. -/
def checkCookieChange (fs : FilesystemId) (removed : List DirectoryEntryRecord)
    (a : Allocation DirectoryCookie) :
    StateChange → Except MalformedCommit (Allocation DirectoryCookie)
  | .insert _ (.directoryEntry entry) =>
    if removed.any (fun old => old.cookie == entry.cookie && old.childInodeId == entry.childInodeId)
    then .ok a
    else do
      ensure (entry.cookie = a.next) .directoryCookieAllocation
      a.take (a.next.checkedAdvance 1)
  | .replace key (.directoryEntry replacement) =>
    match records[key]? with
    | some (.directoryEntry current) => do
      ensure (current.cookie = replacement.cookie) .directoryCookieAllocation
      return a
    | _ => .ok a
  | .moveDirectoryEntry parent name destination =>
    match records[RecordKey.directoryEntry fs parent name]? with
    | some (.directoryEntry current) => do
      ensure (current.cookie = destination.cookie ∧
        current.childInodeId = destination.childInodeId) .directoryCookieAllocation
      return a
    | _ => .error .directoryCookieAllocation
  | .advanceDirectoryCookie count => a.declare count
  | _ => .ok a

/-- `validate_directory_cookie_transition` (memory.rs:1249); the bootstrap transaction is checked
as a complete record set only. -/
def validateDirectoryCookieTransition (request : CommitRequest) :
    Except MalformedCommit Unit :=
  match records[RecordKey.filesystem request.filesystemId]? with
  | some (.filesystem filesystem) => do
    let removed := request.changes.filterMap (·.removedEntry records request.filesystemId)
    let a ← request.changes.foldlM (checkCookieChange records request.filesystemId removed)
      { next := filesystem.nextDirectoryCookie }
    ensure (a.allocations = a.declared) .directoryCookieAllocation
  | _ => .ok ()

/-- One iteration of `validate_qid_path_transition`. -/
def checkQidChange (a : Allocation QidPath) :
    StateChange → Except MalformedCommit (Allocation QidPath)
  | .insert _ (.inode inode) => do
    ensure (inode.qidPath = a.next) .qidPathAllocation
    a.take a.next.checkedNext
  | .replace key (.inode replacement) =>
    match records[key]? with
    | some (.inode current) => do
      ensure (current.qidPath = replacement.qidPath) .qidPathAllocation
      return a
    | _ => .ok a
  | .advanceQidPath count => a.declare count
  | _ => .ok a

/-- memory.rs:1350. -/
def validateQidPathTransition (request : CommitRequest) :
    Except MalformedCommit Unit :=
  match records[RecordKey.filesystem request.filesystemId]? with
  | some (.filesystem filesystem) => do
    let a ← request.changes.foldlM (checkQidChange records) { next := filesystem.nextQidPath }
    ensure (a.allocations = a.declared) .qidPathAllocation
  | _ => .ok ()

/-- The directories whose entries a change touches (`validate_monotonic_transitions`). -/
def StateChange.namespaceParents : StateChange → List InodeId
  | insert _ (.directoryEntry entry) | replace _ (.directoryEntry entry) => [entry.parentInodeId]
  | delete key =>
    match records[key]? with
    | some (.directoryEntry entry) => [entry.parentInodeId]
    | _ => []
  | moveDirectoryEntry parent _ destination => [parent, destination.parentInodeId]
  | _ => []

end

/-- `namespace_parents`: a `BTreeSet`, so only membership and the first failing parent matter; all
failures are the same error. -/
def CommitRequest.namespaceParents (request : CommitRequest) (records : RecordMap) : List InodeId :=
  request.changes.flatMap (·.namespaceParents records)

/-- memory.rs:1579. -/
def directoryGenerationAdvancesOnce (current replacement : InodeRecord) : Bool :=
  match current.directoryGeneration, replacement.directoryGeneration with
  | some old, some new => old.checkedNext.toOption == some new
  | _, _ => false

/-- The change advances the directory generation of the parent (`validate_monotonic_transitions`). -/
def StateChange.advancesParent (records : RecordMap) (fs : FilesystemId) (parent : InodeId) :
    StateChange → Bool
  | bumpDirectoryGeneration inode => inode == parent
  | replace key (.inode replacement) =>
    if key = .inode fs parent then
      match records[key]? with
      | some (.inode current) => directoryGenerationAdvancesOnce current replacement
      | _ => false
    else false
  | _ => false

/-- The change moves the directory's entry from its old parent to its new
one (`directory_parent_transition_valid`). -/
def StateChange.movesDirectory (records : RecordMap) (fs : FilesystemId) (inode old new : InodeId) :
    StateChange → Bool
  | moveDirectoryEntry parent name destination =>
    match records[RecordKey.directoryEntry fs parent name]? with
    | some (.directoryEntry source) => parent == old && destination.parentInodeId == new &&
        destination.childInodeId == inode && destination.cookie == source.cookie
    | _ => false
  | _ => false

/-- The entry naming the inode in its old parent that the change deletes
(`directory_parent_transition_valid`). -/
def StateChange.deletedFrom (records : RecordMap) (inode old : InodeId) :
    StateChange → Option DirectoryEntryRecord
  | delete key =>
    match records[key]? with
    | some (.directoryEntry entry) =>
      if entry.childInodeId = inode ∧ entry.parentInodeId = old then some entry else none
    | _ => none
  | _ => none

/-- The entry naming the inode in its new parent that the change inserts
(`directory_parent_transition_valid`). -/
def StateChange.insertedInto (inode new : InodeId) : StateChange → Option DirectoryEntryRecord
  | insert _ (.directoryEntry entry) =>
    if entry.childInodeId = inode ∧ entry.parentInodeId = new then some entry else none
  | _ => none

/-- memory.rs:1515. -/
def directoryParentTransitionValid (records : RecordMap) (request : CommitRequest)
    (current replacement : InodeRecord) : Bool :=
  match current.directoryParent, replacement.directoryParent with
  | some old, some new =>
    old == new ||
    request.changes.any (·.movesDirectory records request.filesystemId current.inodeId old new) ||
    match request.changes.findSome? (·.deletedFrom records current.inodeId old),
        request.changes.findSome? (·.insertedInto current.inodeId new) with
    | some deleted, some inserted => deleted.cookie == inserted.cookie
    | _, _ => false
  | old, new => old == new

/-- The directory generation moves exactly for the touched directories (`validate_monotonic_transitions`). -/
def directoryGenerationValid (parents : List InodeId) (current replacement : InodeRecord) : Bool :=
  match current.directoryGeneration, replacement.directoryGeneration with
  | some old, some new =>
    if current.inodeId ∈ parents then old.checkedNext.toOption == some new else old == new
  | none, none => true
  | _, _ => false

section

variable (records : RecordMap) (request : CommitRequest)

/-- What a replacement may change (`validate_monotonic_transitions`). -/
def replacementValid (parents : List InodeId) :
    StateRecord → StateRecord → Bool
  | .filesystem current, .filesystem replacement =>
    current.rootInodeId == replacement.rootInodeId &&
    current.nextQidPath == replacement.nextQidPath &&
    current.nextDirectoryCookie == replacement.nextDirectoryCookie &&
    current.policyGeneration == replacement.policyGeneration
  | .inode current, .inode replacement =>
    current.kind == replacement.kind &&
    current.inodeGeneration.checkedNext.toOption == some replacement.inodeGeneration &&
    current.content == replacement.content &&
    current.contentFileId == replacement.contentFileId &&
    current.contentContextId == replacement.contentContextId &&
    directoryGenerationValid parents current replacement &&
    directoryParentTransitionValid records request current replacement
  | .directoryEntry current, .directoryEntry replacement =>
    current.cookie == replacement.cookie && current.parentInodeId == replacement.parentInodeId
  | .lock current, .lock replacement =>
    current.generation.checkedNext.toOption == some replacement.generation
  | .orphan current, .orphan replacement =>
    current.orphanedRevision == replacement.orphanedRevision
  | _, _ => true

/-- One iteration of the second loop (`validate_monotonic_transitions`). -/
def checkReplacement (parents : List InodeId) :
    StateChange → Except MalformedCommit Unit
  | .replace key record =>
    match records[key]? with
    | some current =>
      ensure (replacementValid records request parents current record) .nonMonotonicTransition
    | none => .ok ()
  | _ => .ok ()

/-- memory.rs:1404. -/
def validateMonotonicTransitions :
    Except MalformedCommit Unit :=
  if RecordKey.filesystem request.filesystemId ∉ records then .ok ()
  else do
    let parents := request.namespaceParents records
    parents.forM fun parent =>
      ensure (request.changes.any (·.advancesParent records request.filesystemId parent))
        .namespaceGeneration
    request.changes.forM (checkReplacement records request parents)

end

/-- The change writes the attribute that a staging record is for (`validate_xattr_transitions`). -/
def StateChange.writesXattr (staging : XattrStagingRecord) : StateChange → Bool
  | insert _ (.xattr xattr) | replace _ (.xattr xattr) =>
    xattr.inodeId == staging.inodeId && xattr.name == staging.name
  | _ => false

/-- The staging record is the complete one that the publication names. -/
def XattrStagingRecord.isFor (staging : XattrStagingRecord) (publication : PublishXattrStaging) :
    Bool :=
  staging.inodeId == publication.inodeId && staging.name == publication.name && staging.isComplete

/-- One iteration of `validate_xattr_transitions`. -/
def checkXattrChange (records : RecordMap) (request : CommitRequest) (bytes : Nat) :
    StateChange → Except MalformedCommit Nat
  | .publishXattrStaging publication =>
    match records[RecordKey.xattrStaging request.filesystemId publication.stagingId]? with
    | some (.xattrStaging staging) => do
      ensure (staging.isFor publication) .invalidXattrStaging
      return bytes + staging.bytes.bytes.length
    | _ => .error .invalidXattrStaging
  | .delete (.xattrStaging fs stagingId) =>
    match records[RecordKey.xattrStaging fs stagingId]? with
    | some (.xattrStaging staging) => do
      ensure (request.changes.any (·.writesXattr staging) = false) .xattrPublicationRequired
      return bytes
    | _ => .ok bytes
  | _ => .ok bytes

/-- memory.rs:1589. -/
def validateXattrTransitions (records : RecordMap) (request : CommitRequest)
    (limits : StateLimits) : Except MalformedCommit Unit := do
  let bytes ← request.changes.foldlM (checkXattrChange records request) request.retainedBytes
  mapErr .limit (requireAtMost .transactionBytes bytes limits.maxTransactionBytes)

/-! ## Record mutators -/

theorem checkedAdd_ne_zero {a b c : UInt64} (h : checkedAdd a b = some c) (ha : a ≠ 0) : c ≠ 0 := by
  rintro rfl
  have hsum := checkedAdd_eq_some.1 h
  rw [UInt64.toNat_zero] at hsum
  exact ha (UInt64.toNat_inj.1 (by rw [UInt64.toNat_zero]; omega))

theorem DirectoryCookie.checkedAdvance_ne {c d : DirectoryCookie} {count : UInt64}
    (h : c.checkedAdvance count = .ok d) (hc : c ≠ .start) : d ≠ .start := by
  unfold checkedAdvance at h
  cases hadd : checkedAdd c.get count with
  | none => simp [hadd] at h
  | some value =>
    simp only [hadd, Except.ok.injEq] at h
    subst h
    have hget : c.get ≠ 0 := fun h0 => hc (by cases c; simpa [start] using h0)
    exact fun hz => checkedAdd_ne_zero hadd hget (congrArg DirectoryCookie.get hz)

namespace FilesystemRecord

/-- records.rs:483. -/
def advanceDirectoryCookie (r : FilesystemRecord) (count : NonZeroU64) :
    Except CounterOverflow FilesystemRecord :=
  match h : r.nextDirectoryCookie.checkedAdvance count with
  | .ok next => .ok { r with
      nextDirectoryCookie := next
      cookie_ne := DirectoryCookie.checkedAdvance_ne h r.cookie_ne }
  | .error e => .error e

/-- records.rs:491. -/
def advanceQidPath (r : FilesystemRecord) (count : NonZeroU64) :
    Except CounterOverflow FilesystemRecord := do
  let next ← r.nextQidPath.checkedAdvance count
  return { r with nextQidPath := next }

/-- records.rs:499. -/
def bumpPolicyGeneration (r : FilesystemRecord) : Except CounterOverflow FilesystemRecord :=
  match h : checkedAdd r.policyGeneration 1 with
  | some next => .ok { r with policyGeneration := next, policy_ne := checkedAdd_ne_zero h r.policy_ne }
  | none => .error ⟨"FilesystemPolicyGeneration"⟩

end FilesystemRecord

namespace InodeRecord

/-- records.rs:1575. -/
def bumpInodeGeneration (r : InodeRecord) : Except CounterOverflow InodeRecord := do
  let next ← r.inodeGeneration.checkedNext
  return { r with inodeGeneration := next }

/-- records.rs:1580. -/
def bumpDirectoryGeneration (r : InodeRecord) : Except CounterOverflow InodeRecord :=
  match h : r.data with
  | .directory generation parent => do
    let next ← generation.checkedNext
    let inodeNext ← r.inodeGeneration.checkedNext
    return { r with
      data := .directory next parent
      inodeGeneration := inodeNext
      data_valid := by simpa [h, validateInodeData] using r.data_valid }
  | _ => .error ⟨"DirectoryGenerationKind"⟩

/-- records.rs:1591. -/
def adjustLinkCount (r : InodeRecord) (adjustment : CounterAdjustment) :
    Except CounterOverflow InodeRecord := do
  let links ← okOr (adjustment.apply r.linkCount) ⟨"LinkCount"⟩
  let next ← r.inodeGeneration.checkedNext
  return { r with linkCount := links, inodeGeneration := next }

/-- The data of an inode after a publication (`publish_content`). -/
def publishedData (publication : PublishContent) : InodeData :=
  .regularFile publication.prepared.content.fileId (some publication.prepared.content)
    publication.dataGeneration.get

/-- records.rs:1602. -/
def publishContent (r : InodeRecord) (publication : PublishContent)
    (h : validateInodeData publication.logicalSize (publishedData publication) = .ok ()) :
    InodeRecord := { r with
  logicalSize := publication.logicalSize
  inodeGeneration := publication.inodeGeneration
  mode := publication.attributes.mode.getD r.mode
  owner := publication.attributes.owner.getD r.owner
  group := publication.attributes.group.getD r.group
  times := publication.attributes.applyTimes r.times
  data := publishedData publication
  data_valid := h }

end InodeRecord

/-- `adjust_open_pin_count` (records.rs:685): an orphan keeps at least one pin. -/
def OrphanRecord.adjustOpenPinCount (r : OrphanRecord) (adjustment : CounterAdjustment) :
    Except CounterOverflow OrphanRecord :=
  match adjustment.apply r.openPinCount with
  | some count =>
    if h : count ≠ 0 then .ok { r with openPinCount := count, count_ne := h }
    else .error ⟨"OrphanOpenPinCount"⟩
  | none => .error ⟨"OrphanOpenPinCount"⟩

/-- records.rs:884. -/
def LockRecord.bumpGeneration (r : LockRecord) : Except CounterOverflow LockRecord := do
  let next ← r.generation.checkedNext
  return { r with generation := next }

/-- `rewrap` with `validate_rewrap` (content_metadata.rs:110-151); every error is reported as
`InvalidContentMetadataRewrap`. -/
def ContentMetadataRecord.rewrap (r : ContentMetadataRecord) (context : ContentContextId)
    (wrapped : Bytes) (limits : StateLimits) : Option ContentMetadataRecord :=
  if h : r.contextId = context ∧ r.keyCommitment.isSome = true ∧ wrapped ≠ [] ∧
      wrapped.length ≤ limits.maxWrappedContentKeyBytes ∧
      96 + r.policyBytes.length + wrapped.length ≤ limits.maxContentMetadataBytes then
    some { r with wrappedKeyBytes := some wrapped, key_shape := h.2.1 }
  else none

/-! ## Applying one change -/

/-- memory.rs:1644. -/
inductive ApplyFailure where
  | conflict (kind : CommitConflictKind)
  | malformed (error : MalformedCommit)

/-- The closures passed to `mutate_record`: the counter of a record that the
change moves, or an error when the record is of another family. -/
def StateChange.mutate (change : StateChange) (record : StateRecord) :
    Except CounterOverflow StateRecord :=
  match change, record with
  | advanceDirectoryCookie count, .filesystem r =>
    .filesystem <$> r.advanceDirectoryCookie count
  | advanceQidPath count, .filesystem r => .filesystem <$> r.advanceQidPath count
  | bumpFilesystemPolicyGeneration, .filesystem r => .filesystem <$> r.bumpPolicyGeneration
  | bumpInodeGeneration _, .inode r => .inode <$> r.bumpInodeGeneration
  | bumpDirectoryGeneration _, .inode r => .inode <$> r.bumpDirectoryGeneration
  | adjustLinkCount _ adjustment, .inode r => .inode <$> r.adjustLinkCount adjustment
  | adjustOpenPinCount _ adjustment, .orphan r => .orphan <$> r.adjustOpenPinCount adjustment
  | bumpLockGeneration _ _, .lock r => .lock <$> r.bumpGeneration
  | advanceDirectoryCookie _, _ | advanceQidPath _, _ | bumpFilesystemPolicyGeneration, _ =>
    .error ⟨"FilesystemRecordKind"⟩
  | bumpDirectoryGeneration _, _ => .error ⟨"DirectoryRecordKind"⟩
  | adjustOpenPinCount _ _, _ => .error ⟨"OrphanRecordKind"⟩
  | bumpLockGeneration _ _, _ => .error ⟨"LockRecordKind"⟩
  | _, _ => .error ⟨"InodeRecordKind"⟩

section

variable (records : RecordMap)

/-- memory.rs:1904. -/
def mutateRecord (key : RecordKey) (revision : RecordRevision)
    (mutate : StateRecord → Except CounterOverflow StateRecord) :
    Except ApplyFailure RecordMap := do
  let record ← okOr records[key]? (.conflict (.recordMissing key))
  let record ← mapErr (fun _ => ApplyFailure.malformed .arithmetic) (mutate record)
  return records.insert key (record.withRevision revision)

/-- The first lock of the filesystem, in key order, in conflict with the record (`apply_change`). -/
def lockConflict (fs : FilesystemId) (record : StateRecord) : Option LockId :=
  match record with
  | .lock requested => records.toList.findSome? fun
    | (.lock f _ _, .lock existing) =>
      if f = fs ∧ requested.conflictsWith existing = true then some existing.lockId else none
    | _ => none
  | _ => none

/-- A lock is inserted only beside compatible ones (`apply_change`). -/
def checkLockConflict (fs : FilesystemId) (record : StateRecord) :
    Except ApplyFailure Unit :=
  match lockConflict records fs record with
  | some existing => .error (.conflict (.lockConflict existing))
  | none => .ok ()

def requireInodeRecord (key : RecordKey) : Except ApplyFailure InodeRecord :=
  match records[key]? with
  | some (.inode inode) => .ok inode
  | _ => .error (.conflict (.recordMissing key))

def requireMetadataRecord (key : RecordKey) :
    Except ApplyFailure ContentMetadataRecord :=
  match records[key]? with
  | some (.contentMetadata metadata) => .ok metadata
  | _ => .error (.conflict (.recordMissing key))

def requireEntryRecord (key : RecordKey) :
    Except ApplyFailure DirectoryEntryRecord :=
  match records[key]? with
  | some (.directoryEntry entry) => .ok entry
  | _ => .error (.conflict (.recordMissing key))

/-- The content metadata selected by an inode (`apply_change`). -/
def contentMetadataOf (fs : FilesystemId) (inode : InodeRecord) :
    Option ContentMetadataRecord :=
  match inode.contentFileId with
  | some file =>
    match records[RecordKey.contentMetadata fs file]? with
    | some (.contentMetadata metadata) => some metadata
    | _ => none
  | none => none

end

/-- A generic replacement keeps the content of an inode (`apply_change`). -/
def checkContentKept : StateRecord → StateRecord → Except ApplyFailure Unit
  | .inode current, .inode replacement =>
    ensure (current.content = replacement.content ∧
      current.contentFileId = replacement.contentFileId)
      (.malformed .contentReplacementRequiresPreparedPublication)
  | _, _ => .ok ()

/-- The checks of a publication are those of the inode data it leaves. -/
theorem publishedData_valid {publication : PublishContent} {mutation : MutationContext}
    {inode : InodeRecord} {metadata : ContentMetadataRecord}
    (h : validatePublishContentWithMetadata publication mutation inode metadata = .ok ()) :
    validateInodeData publication.logicalSize (InodeRecord.publishedData publication) = .ok () := by
  simp only [validatePublishContentWithMetadata, validatePublishContent, bind_eq_ok,
    ensure_eq_ok] at h
  obtain ⟨_, ⟨_, -, _, -, _, -, _, -, _, -, _, hsize, generation, -, _, ⟨hcontent, hdata⟩, -⟩, -⟩ := h
  simp only [InodeRecord.publishedData, validateInodeData, bind_eq_ok, ensure_eq_ok]
  exact ⟨(), trivial, (), hsize.symm, hcontent.trans hdata.symm, publication.dataGeneration.nonzero⟩

section

variable (records : RecordMap) (fs : FilesystemId)

/-- The `PublishContent` arm (`apply_change`). -/
def applyPublishContent (mutation : MutationContext) (publication : PublishContent)
    (revision : RecordRevision) : Except ApplyFailure RecordMap := do
  let key := RecordKey.inode fs publication.inodeId
  let inode ← requireInodeRecord records key
  let metadata ← okOr (contentMetadataOf records fs inode)
    (.malformed (.invalidPublication .contentContextMismatch))
  match h : validatePublishContentWithMetadata publication mutation inode metadata with
  | .error e => .error (.malformed (.invalidPublication e))
  | .ok () => .ok (records.insert key ((StateRecord.inode
      (inode.publishContent publication (publishedData_valid h))).withRevision revision))

/-- The `RewrapContentMetadata` arm (`apply_change`). -/
def applyRewrap (rewrap : RewrapContentMetadata) (revision : RecordRevision) (limits : StateLimits) :
    Except ApplyFailure RecordMap := do
  let key := RecordKey.contentMetadata fs rewrap.contentFileId
  let metadata ← requireMetadataRecord records key
  ensure (metadata.revision = rewrap.expectedRevision)
    (.conflict (.recordRevision key rewrap.expectedRevision metadata.revision))
  let metadata ← okOr (metadata.rewrap rewrap.expectedContextId rewrap.wrappedKeyBytes limits)
    (.malformed .invalidContentMetadataRewrap)
  return records.insert key ((StateRecord.contentMetadata metadata).withRevision revision)

/-- The `MoveDirectoryEntry` arm (`apply_change`). -/
def applyMove (parent : InodeId) (name : EntryName) (destination : DirectoryEntryRecord)
    (revision : RecordRevision) :
    Except ApplyFailure RecordMap := do
  let source := RecordKey.directoryEntry fs parent name
  let current ← requireEntryRecord records source
  ensure (current.cookie = destination.cookie ∧ current.childInodeId = destination.childInodeId)
    (.malformed .directoryCookieAllocation)
  let destinationKey := RecordKey.directoryEntry fs destination.parentInodeId destination.name
  return (records.erase source).insert destinationKey
    ((StateRecord.directoryEntry destination).withRevision revision)

/-- The `PublishXattrStaging` arm (`apply_change`). -/
def applyPublishXattr (publication : PublishXattrStaging) (revision : RecordRevision) :
    Except ApplyFailure RecordMap :=
  match records[RecordKey.xattrStaging fs publication.stagingId]? with
  | some (.xattrStaging staging) => do
    ensure (staging.isFor publication) (.malformed .invalidXattrStaging)
    return (records.erase (.xattrStaging fs publication.stagingId)).insert
      (.xattr fs publication.inodeId publication.name)
      (.xattr ⟨publication.inodeId, publication.name, staging.bytes, revision⟩)
  | _ => .error (.malformed .invalidXattrStaging)

/-- memory.rs:1649. -/
def applyChange (mutation : MutationContext) (change : StateChange) (revision : RecordRevision)
    (limits : StateLimits) :
    Except ApplyFailure RecordMap :=
  match change with
  | .insert key record => do
    ensure (key ∉ records) (.conflict (.recordPresent key))
    checkLockConflict records fs record
    return records.insert key (record.withRevision revision)
  | .replace key record => do
    let current ← okOr records[key]? (.conflict (.recordMissing key))
    checkContentKept current record
    return records.insert key (record.withRevision revision)
  | .delete key => do
    ensure (key ∈ records) (.conflict (.recordMissing key))
    return records.erase key
  | .moveDirectoryEntry parent name destination =>
    applyMove records fs parent name destination revision
  | .retainResult => .ok records
  | .publishContent publication => applyPublishContent records fs mutation publication revision
  | .rewrapContentMetadata rewrap => applyRewrap records fs rewrap revision limits
  | .publishXattrStaging publication => applyPublishXattr records fs publication revision
  | change => mutateRecord records (change.primaryKey fs) revision change.mutate

end

/-! ## What a change can do

Every change keeps the records outside its affected keys; what it writes there carries the revision
of the commit. -/

/-- Each key keeps its record, or is among `keys` and holds nothing or a record of revision `rev`. -/
def Stamps (keys : List RecordKey) (rev : RecordRevision) (before after : RecordMap) : Prop :=
  ∀ key, after[key]? = before[key]? ∨ key ∈ keys ∧ ∀ r, after[key]? = some r → r.revision = rev

namespace Stamps

variable {keys keys' : List RecordKey} {rev : RecordRevision} {a b c : RecordMap}

theorem refl : Stamps keys rev a a := fun _ => .inl rfl

theorem mono (h : Stamps keys rev a b) (hsub : ∀ key ∈ keys, key ∈ keys') :
    Stamps keys' rev a b := fun key => (h key).imp_right fun ⟨hk, hr⟩ => ⟨hsub key hk, hr⟩

theorem trans (hab : Stamps keys rev a b) (hbc : Stamps keys rev b c) : Stamps keys rev a c := by
  intro key
  rcases hbc key with hkeep | hwrite
  · rcases hab key with hkeep' | ⟨hk, hr⟩
    · exact .inl (hkeep.trans hkeep')
    · exact .inr ⟨hk, fun r hr' => hr r (hkeep ▸ hr')⟩
  · exact .inr hwrite

variable {key : RecordKey}

theorem insert {r : StateRecord} (hk : key ∈ keys) (hr : r.revision = rev) :
    Stamps keys rev a (a.insert key r) := by
  intro other
  rw [Std.ExtTreeMap.getElem?_insert]
  by_cases hkey : key = other
  · subst hkey
    simp [hk, hr]
  · simp [hkey]

theorem erase (hk : key ∈ keys) : Stamps keys rev a (a.erase key) := by
  intro other
  rw [Std.ExtTreeMap.getElem?_erase]
  by_cases hkey : key = other
  · subst hkey
    simp [hk]
  · simp [hkey]

/-- Everything outside the keys is unchanged. -/
theorem frame (h : Stamps keys rev a b) (hk : key ∉ keys) : b[key]? = a[key]? :=
  (h key).resolve_right fun hw => hk hw.1

end Stamps

section ApplySpec

variable {records after : RecordMap} {fs : FilesystemId} {mutation : MutationContext}
  {change : StateChange} {rev : RecordRevision} {limits : StateLimits} {keys : List RecordKey}

theorem stamps_mutateRecord {key : RecordKey}
    {mutate : StateRecord → Except CounterOverflow StateRecord}
    (h : mutateRecord records key rev mutate = .ok after) (hk : key ∈ keys) :
    Stamps keys rev records after := by
  simp only [mutateRecord, bind_eq_ok, pure_eq_ok] at h
  obtain ⟨_, -, _, -, rfl⟩ := h
  exact Stamps.insert hk (by simp)

theorem stamps_applyMove {parent : InodeId} {name : EntryName} {destination : DirectoryEntryRecord}
    (h : applyMove records fs parent name destination rev = .ok after) :
    Stamps ((StateChange.moveDirectoryEntry parent name destination).affectedKeys fs) rev records
      after := by
  simp only [applyMove, bind_eq_ok, pure_eq_ok] at h
  obtain ⟨_, -, _, -, rfl⟩ := h
  exact (Stamps.erase (by simp [StateChange.affectedKeys])).trans
    (Stamps.insert (by simp [StateChange.affectedKeys]) (by simp))

theorem stamps_applyPublishXattr {publication : PublishXattrStaging}
    (h : applyPublishXattr records fs publication rev = .ok after) :
    Stamps ((StateChange.publishXattrStaging publication).affectedKeys fs) rev records after := by
  unfold applyPublishXattr at h
  split at h
  · simp only [bind_eq_ok, pure_eq_ok] at h
    obtain ⟨_, -, rfl⟩ := h
    exact (Stamps.erase (by simp [StateChange.affectedKeys])).trans
      (Stamps.insert (by simp [StateChange.affectedKeys]) rfl)
  · cases h

/-- **One change** writes only its affected keys, at the revision of the commit. -/
theorem stamps_applyChange (h : applyChange records fs mutation change rev limits = .ok after) :
    Stamps (change.affectedKeys fs) rev records after := by
  cases change with
  | insert key record =>
    simp only [applyChange, bind_eq_ok, pure_eq_ok] at h
    obtain ⟨_, -, _, -, rfl⟩ := h
    exact Stamps.insert (by simp [StateChange.affectedKeys, StateChange.primaryKey]) (by simp)
  | replace key record =>
    simp only [applyChange, bind_eq_ok, pure_eq_ok] at h
    obtain ⟨_, -, _, -, rfl⟩ := h
    exact Stamps.insert (by simp [StateChange.affectedKeys, StateChange.primaryKey]) (by simp)
  | delete key =>
    simp only [applyChange, bind_eq_ok, pure_eq_ok] at h
    obtain ⟨_, -, rfl⟩ := h
    exact Stamps.erase (by simp [StateChange.affectedKeys, StateChange.primaryKey])
  | moveDirectoryEntry parent name destination => exact stamps_applyMove h
  | retainResult => cases h; exact Stamps.refl
  | publishContent publication =>
    simp only [applyChange, applyPublishContent, bind_eq_ok] at h
    obtain ⟨_, -, _, -, h⟩ := h
    split at h
    · cases h
    · cases h
      exact Stamps.insert (by simp [StateChange.affectedKeys, StateChange.primaryKey]) (by simp)
  | rewrapContentMetadata rewrap =>
    simp only [applyChange, applyRewrap, bind_eq_ok, pure_eq_ok] at h
    obtain ⟨_, -, _, -, _, -, rfl⟩ := h
    exact Stamps.insert (by simp [StateChange.affectedKeys, StateChange.primaryKey]) (by simp)
  | publishXattrStaging publication => exact stamps_applyPublishXattr h
  | _ => exact stamps_mutateRecord h (by simp [StateChange.affectedKeys])

end ApplySpec

end W9pt.State
