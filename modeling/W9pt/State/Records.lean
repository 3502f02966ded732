import W9pt.State.Values
import W9pt.Storage.Content

/-!
# Authoritative records (`w9pt-fs-state/src/records.rs`, `content_metadata.rs`)

One tagged value per record family, and its key. A field whose Rust constructor rejects some values
(a zero cookie, an empty lock range, an orphan without pins, a zero policy generation, an inode whose
size disagrees with its data) carries the check as a proof.
-/

namespace W9pt.State

open Lib Storage

/-! ## Keys -/

/-- Semantic family of a record (records.rs:17). -/
inductive RecordFamily where
  | filesystem | inode | contentMetadata | directoryEntry | openInstance | openPin | orphan | lock
  | xattr | xattrStaging | mutation | writerLease
deriving DecidableEq

/-- Semantic key of a record (records.rs:46). -/
inductive RecordKey where
  | filesystem (fs : FilesystemId)
  | inode (fs : FilesystemId) (inode : InodeId)
  | contentMetadata (fs : FilesystemId) (file : FileId)
  | directoryEntry (fs : FilesystemId) (parent : InodeId) (name : EntryName)
  | openInstance (fs : FilesystemId) (openId : OpenId)
  | openPin (fs : FilesystemId) (inode : InodeId) (openId : OpenId)
  | orphan (fs : FilesystemId) (inode : InodeId)
  | lock (fs : FilesystemId) (inode : InodeId) (lock : LockId)
  | xattr (fs : FilesystemId) (inode : InodeId) (name : XattrName)
  | xattrStaging (fs : FilesystemId) (staging : XattrStagingId)
  | mutation (fs : FilesystemId) (mutation : MutationId)
  | writerLease (fs : FilesystemId) (scope : WriterScopeId)
deriving DecidableEq

namespace RecordKey

/-- records.rs:75. -/
def filesystemId : RecordKey → FilesystemId
  | filesystem fs | inode fs _ | contentMetadata fs _ | directoryEntry fs _ _ | openInstance fs _
  | openPin fs _ _ | orphan fs _ | lock fs _ _ | xattr fs _ _ | xattrStaging fs _
  | mutation fs _ | writerLease fs _ => fs

/-- records.rs:93. -/
def family : RecordKey → RecordFamily
  | filesystem _ => .filesystem
  | inode _ _ => .inode
  | contentMetadata _ _ => .contentMetadata
  | directoryEntry _ _ _ => .directoryEntry
  | openInstance _ _ => .openInstance
  | openPin _ _ _ => .openPin
  | orphan _ _ => .orphan
  | lock _ _ _ => .lock
  | xattr _ _ _ => .xattr
  | xattrStaging _ _ => .xattrStaging
  | mutation _ _ => .mutation
  | writerLease _ _ => .writerLease

/-- `retained_bytes` (records.rs:110); lengths of values in memory never overflow `usize`. -/
def retainedBytes : RecordKey → Nat
  | directoryEntry _ _ name => 64 + name.bytes.length
  | xattr _ _ name => 64 + name.bytes.length
  | _ => 64

/-- records.rs:120. -/
def validateAgainstLimits (limits : StateLimits) : RecordKey → Except StateLimitError Unit
  | directoryEntry _ _ name => requireAtMost .entryName name.bytes.length limits.maxEntryNameBytes
  | xattr _ _ name => requireAtMost .xattrName name.bytes.length limits.maxXattrNameBytes
  | _ => .ok ()

/-- The derived order: the variant, then the fields, each fixed-width identity as one digit; the
names come last, so comparing lists compares names bytewise with the shorter prefix first. -/
def sortKey : RecordKey → List Nat
  | filesystem fs => [0, fs.rank]
  | inode fs i => [1, fs.rank, i.rank]
  | contentMetadata fs f => [2, fs.rank, f.rank]
  | directoryEntry fs p name => 3 :: fs.rank :: p.rank :: name.bytes.map UInt8.toNat
  | openInstance fs o => [4, fs.rank, o.rank]
  | openPin fs i o => [5, fs.rank, i.rank, o.rank]
  | orphan fs i => [6, fs.rank, i.rank]
  | lock fs i l => [7, fs.rank, i.rank, l.rank]
  | xattr fs i name => 8 :: fs.rank :: i.rank :: name.bytes.map UInt8.toNat
  | xattrStaging fs s => [9, fs.rank, s.rank]
  | mutation fs m => [10, fs.rank, m.rank]
  | writerLease fs s => [11, fs.rank, s.rank]

theorem map_toNat_inj {a b : Bytes} : a.map UInt8.toNat = b.map UInt8.toNat ↔ a = b :=
  ⟨fun h => List.map_injective_iff.2 (fun _ _ hxy => UInt8.toNat_inj.1 hxy) h, fun h => by rw [h]⟩

theorem sortKey_inj {a b : RecordKey} (h : a.sortKey = b.sortKey) : a = b := by
  cases a <;> cases b <;>
    simp_all [sortKey, FixedId.rank_inj, map_toNat_inj, EntryName.ext_iff, BoundedBytes.ext_iff]

instance : Ord RecordKey := ⟨compareOn sortKey⟩

instance : Std.TransOrd RecordKey := inferInstanceAs (Std.TransCmp (compareOn sortKey))

instance : Std.LawfulEqOrd RecordKey where
  compare_self {a} := by
    show compare a.sortKey a.sortKey = .eq
    exact Std.ReflOrd.compare_self
  eq_of_compare h := sortKey_inj (Std.LawfulEqOrd.eq_of_compare h)

end RecordKey

/-! ## Record values -/

/-- Root and allocation state of one filesystem (records.rs:408). -/
@[ext] structure FilesystemRecord where
  filesystemId : FilesystemId
  revision : StateRevision
  recordRevision : RecordRevision
  rootInodeId : InodeId
  nextQidPath : QidPath
  nextDirectoryCookie : DirectoryCookie
  policyGeneration : UInt64
  cookie_ne : nextDirectoryCookie ≠ .start
  policy_ne : policyGeneration ≠ 0

instance : DecidableEq FilesystemRecord := fun _ _ => decidable_of_iff _ FilesystemRecord.ext_iff.symm

/-- Persistent object kind (records.rs:1240). -/
inductive InodeKind where
  | regularFile | directory | symlink | characterDevice | blockDevice | fifo | socket
deriving DecidableEq

structure DeviceNumbers where
  major : UInt32
  minor : UInt32
deriving DecidableEq

/-- Kind-specific inode data (records.rs:1268). -/
inductive InodeData where
  | regularFile (contentFileId : FileId) (content : Option ContentRef) (dataGeneration : UInt64)
  | directory (generation : DirectoryGeneration) (parentInodeId : InodeId)
  | symlink (target : SymlinkTarget)
  | characterDevice (numbers : DeviceNumbers)
  | blockDevice (numbers : DeviceNumbers)
  | fifo
  | socket
deriving DecidableEq

/-- records.rs:1302. -/
def InodeData.kind : InodeData → InodeKind
  | regularFile .. => .regularFile
  | directory .. => .directory
  | symlink _ => .symlink
  | characterDevice _ => .characterDevice
  | blockDevice _ => .blockDevice
  | fifo => .fifo
  | socket => .socket

structure InodeTimes where
  accessed : UnixTimestamp
  modified : UnixTimestamp
  changed : UnixTimestamp
  created : UnixTimestamp
deriving DecidableEq

/-- Structurally invalid record (records.rs:2070). -/
inductive RecordValidationError where
  | keyVariantMismatch (key value : RecordFamily)
  | keyIdentityMismatch (family : RecordFamily)
  | missingRelatedRecord (relation : String)
  | invalidRelatedRecord (relation : String)
  | directoryCycle (inodeId : InodeId)
  | directoryAncestorLimit (maximum : Nat)
  | zeroDirectoryCookie
  | zeroOpenPins
  | missingContentContext
  | contentContextOnNonRegularFile
  | invalidMode (mode : UInt32)
  | contentFileMismatch
  | contentSizeMismatch (inodeSize contentSize : UInt64)
  | contentGenerationMismatch
  | unpublishedContentState
  | nonDataSize (kind : InodeKind) (size : UInt64)
deriving DecidableEq

/-- records.rs:1624. -/
def validateInodeData (logicalSize : UInt64) : InodeData → Except RecordValidationError Unit
  | .regularFile file (some content) generation => do
    ensure (content.fileId = file) .contentFileMismatch
    ensure (content.logicalSize = logicalSize) (.contentSizeMismatch logicalSize content.logicalSize)
    ensure (content.generation = generation ∧ generation ≠ 0) .contentGenerationMismatch
  | .regularFile _ none generation =>
    ensure (logicalSize = 0 ∧ generation = 0) .unpublishedContentState
  | .symlink target =>
    ensure (logicalSize.toNat = target.bytes.length) (.nonDataSize .symlink logicalSize)
  | data => ensure (logicalSize = 0) (.nonDataSize data.kind logicalSize)

/-- The arguments of `InodeRecord::new` and `new_regular`. -/
structure InodeFields where
  inodeId : InodeId
  qidPath : QidPath
  revision : RecordRevision
  mode : UInt32
  owner : PrincipalId
  group : GroupId
  times : InodeTimes
  logicalSize : UInt64
  linkCount : UInt64
  inodeGeneration : InodeGeneration
  contentContextId : Option ContentContextId
  data : InodeData
deriving DecidableEq

/-- Inode state at one record revision (records.rs:1330): the size and the content generation agree
with the data. -/
structure InodeRecord extends InodeFields where
  data_valid : validateInodeData logicalSize data = .ok ()
deriving DecidableEq

/-- Opaque storage policy and wrapped key of one file (content_metadata.rs:9): the policy is
present, and the key commitment and its envelope are present together. -/
structure ContentMetadataRecord where
  ownerInodeId : InodeId
  contentFileId : FileId
  contextId : ContentContextId
  policyFormat : UInt16
  policyBytes : Bytes
  keyCommitment : Option Digest
  wrappedKeyBytes : Option Bytes
  revision : RecordRevision
  policy_present : policyFormat ≠ 0 ∧ policyBytes ≠ []
  key_shape : keyCommitment.isSome = wrappedKeyBytes.isSome
deriving DecidableEq

/-- One directory component (records.rs:512). -/
structure DirectoryEntryRecord where
  parentInodeId : InodeId
  name : EntryName
  cookie : DirectoryCookie
  childInodeId : InodeId
  revision : RecordRevision
  cookie_ne : cookie ≠ .start
deriving DecidableEq

inductive OpenAccess where
  | readOnly | writeOnly | readWrite | directoryRead
deriving DecidableEq

/-- Portable open state (records.rs:535). -/
structure OpenRecord where
  openId : OpenId
  inodeId : InodeId
  clientIncarnation : ClientIncarnationId
  access : OpenAccess
  append : Bool
  retainedInodeGeneration : InodeGeneration
  revision : RecordRevision
deriving DecidableEq

/-- Pin of one inode by one open (records.rs:605). -/
structure OpenPinRecord where
  inodeId : InodeId
  openId : OpenId
  revision : RecordRevision
deriving DecidableEq

/-- Unlinked inode retained by at least one pin (records.rs:639). -/
@[ext] structure OrphanRecord where
  inodeId : InodeId
  openPinCount : UInt64
  orphanedRevision : StateRevision
  revision : RecordRevision
  count_ne : openPinCount ≠ 0

instance : DecidableEq OrphanRecord := fun _ _ => decidable_of_iff _ OrphanRecord.ext_iff.symm

inductive LockRangeEnd where
  | exclusive (endOffset : UInt64)
  | throughEof
deriving DecidableEq

/-- Nonempty byte range (records.rs:710). -/
structure LockRange where
  start : UInt64
  rangeEnd : LockRangeEnd
  nonempty : ∀ e, rangeEnd = .exclusive e → start < e
deriving DecidableEq

/-- The first `start` lies before the end of the other range. -/
def LockRangeEnd.after (rangeEnd : LockRangeEnd) (start : UInt64) : Bool :=
  match rangeEnd with
  | .exclusive e => start < e
  | .throughEof => true

/-- records.rs:757. -/
def LockRange.overlaps (a b : LockRange) : Bool :=
  b.rangeEnd.after a.start && a.rangeEnd.after b.start

inductive LockKind where
  | shared | exclusive
deriving DecidableEq

structure LockOwner where
  clientIncarnation : ClientIncarnationId
  openId : OpenId
deriving DecidableEq

/-- Byte-range lock (records.rs:808). -/
structure LockRecord where
  lockId : LockId
  inodeId : InodeId
  range : LockRange
  kind : LockKind
  owner : LockOwner
  generation : LockGeneration
  revision : RecordRevision
deriving DecidableEq

/-- records.rs:876. -/
def LockRecord.conflictsWith (a b : LockRecord) : Bool :=
  a.inodeId == b.inodeId && a.owner != b.owner && a.range.overlaps b.range &&
    (a.kind == .exclusive || b.kind == .exclusive)

structure XattrRecord where
  inodeId : InodeId
  name : XattrName
  value : XattrValue
  revision : RecordRevision
deriving DecidableEq

/-- Staging of one extended attribute, never longer than declared (records.rs:938). -/
structure XattrStagingRecord where
  stagingId : XattrStagingId
  inodeId : InodeId
  name : XattrName
  expectedSize : UInt64
  bytes : XattrValue
  revision : RecordRevision
  fits : bytes.bytes.length ≤ expectedSize.toNat
deriving DecidableEq

/-- records.rs:1008. -/
def XattrStagingRecord.isComplete (s : XattrStagingRecord) : Bool :=
  s.bytes.bytes.length == s.expectedSize.toNat

/-- Idempotency-ledger entry (records.rs:1020). -/
structure MutationRecord where
  filesystemId : FilesystemId
  mutationId : MutationId
  fingerprint : RequestFingerprint
  clientIncarnation : ClientIncarnationId
  writerScope : WriterScopeId
  writerIncarnation : WriterIncarnationId
  fencingToken : FencingToken
  result : MutationResult
  committedRevision : StateRevision
  retention : MutationRetention
  revision : RecordRevision
deriving DecidableEq

/-- Current writer lease of one scope (records.rs:1123). -/
structure WriterLeaseRecord where
  filesystemId : FilesystemId
  scope : WriterScopeId
  holder : WriterIncarnationId
  leaseId : LeaseId
  deadline : LeaseDeadline
  fencingToken : FencingToken
  revision : RecordRevision
deriving DecidableEq

/-- Tagged record value (records.rs:139). -/
inductive StateRecord where
  | filesystem (record : FilesystemRecord)
  | inode (record : InodeRecord)
  | contentMetadata (record : ContentMetadataRecord)
  | directoryEntry (record : DirectoryEntryRecord)
  | openInstance (record : OpenRecord)
  | openPin (record : OpenPinRecord)
  | orphan (record : OrphanRecord)
  | lock (record : LockRecord)
  | xattr (record : XattrRecord)
  | xattrStaging (record : XattrStagingRecord)
  | mutation (record : MutationRecord)
  | writerLease (record : WriterLeaseRecord)
deriving DecidableEq

abbrev RecordMap := Std.ExtTreeMap RecordKey StateRecord

/-! ## Inode accessors and constructors -/

namespace InodeRecord

def kind (i : InodeRecord) : InodeKind := i.data.kind

/-- records.rs:1511. -/
def contentFileId (i : InodeRecord) : Option FileId :=
  match i.data with
  | .regularFile file _ _ => some file
  | _ => none

/-- records.rs:1526. -/
def content (i : InodeRecord) : Option ContentRef :=
  match i.data with
  | .regularFile _ content _ => content
  | _ => none

/-- `content_base` (records.rs:1534): the current version, or the new-file sentinel. -/
def contentBase (i : InodeRecord) : Option BaseContentIdentity :=
  match i.data with
  | .regularFile _ (some content) _ => some (.fromContent content)
  | .regularFile _ none _ => some .newFile
  | _ => none

/-- records.rs:1548. -/
def dataGeneration (i : InodeRecord) : Option DataGeneration :=
  match i.data with
  | .regularFile _ _ generation => Counter.new? .dataGeneration generation
  | _ => none

/-- records.rs:1558. -/
def directoryGeneration (i : InodeRecord) : Option DirectoryGeneration :=
  match i.data with
  | .directory generation _ => some generation
  | _ => none

/-- records.rs:1566. -/
def directoryParent (i : InodeRecord) : Option InodeId :=
  match i.data with
  | .directory _ parent => some parent
  | _ => none

theorem directoryParent_isSome {i : InodeRecord} :
    i.directoryParent.isSome = true ↔ i.kind = .directory := by
  unfold directoryParent kind InodeData.kind
  cases i.data <;> simp

theorem contentFileId_isSome {i : InodeRecord} :
    i.contentFileId.isSome = true ↔ i.kind = .regularFile := by
  unfold contentFileId kind InodeData.kind
  cases i.data <;> simp

end InodeRecord

/-- content_metadata.rs:154. -/
def ContentMetadataRecord.retainedBytes (m : ContentMetadataRecord) : Nat :=
  96 + m.policyBytes.length + (m.wrappedKeyBytes.map List.length).getD 0

/-! ## Tagged values -/

namespace StateRecord

/-- records.rs:168. -/
def family : StateRecord → RecordFamily
  | filesystem _ => .filesystem
  | inode _ => .inode
  | contentMetadata _ => .contentMetadata
  | directoryEntry _ => .directoryEntry
  | openInstance _ => .openInstance
  | openPin _ => .openPin
  | orphan _ => .orphan
  | lock _ => .lock
  | xattr _ => .xattr
  | xattrStaging _ => .xattrStaging
  | mutation _ => .mutation
  | writerLease _ => .writerLease

/-- records.rs:186. -/
def revision : StateRecord → RecordRevision
  | filesystem r => r.recordRevision
  | inode r => r.revision
  | contentMetadata r => r.revision
  | directoryEntry r => r.revision
  | openInstance r => r.revision
  | openPin r => r.revision
  | orphan r => r.revision
  | lock r => r.revision
  | xattr r => r.revision
  | xattrStaging r => r.revision
  | mutation r => r.revision
  | writerLease r => r.revision

/-- The identities a key and a value of the same family must share (`validate_key`). -/
def matchesKey : RecordKey → StateRecord → Bool
  | .filesystem fs, filesystem r => fs == r.filesystemId
  | .inode _ i, inode r => i == r.inodeId
  | .contentMetadata _ f, contentMetadata r => f == r.contentFileId
  | .directoryEntry _ p n, directoryEntry r => p == r.parentInodeId && n == r.name
  | .openInstance _ o, openInstance r => o == r.openId
  | .openPin _ i o, openPin r => i == r.inodeId && o == r.openId
  | .orphan _ i, orphan r => i == r.inodeId
  | .lock _ i l, lock r => i == r.inodeId && l == r.lockId
  | .xattr _ i n, xattr r => i == r.inodeId && n == r.name
  | .xattrStaging _ s, xattrStaging r => s == r.stagingId
  | .mutation fs m, mutation r => fs == r.filesystemId && m == r.mutationId
  | .writerLease fs s, writerLease r => fs == r.filesystemId && s == r.scope
  | _, _ => false

/-- records.rs:204. -/
def validateKey (record : StateRecord) (key : RecordKey) : Except RecordValidationError Unit := do
  ensure (record.family = key.family) (.keyVariantMismatch key.family record.family)
  ensure (matchesKey key record) (.keyIdentityMismatch key.family)

/-- `with_revision` (records.rs:255): the header also takes the revision as its state revision. -/
def withRevision (rev : RecordRevision) : StateRecord → StateRecord
  | filesystem r => filesystem { r with recordRevision := rev, revision := ⟨rev.get, rev.nonzero⟩ }
  | inode r => inode { r with revision := rev }
  | contentMetadata r => contentMetadata { r with revision := rev }
  | directoryEntry r => directoryEntry { r with revision := rev }
  | openInstance r => openInstance { r with revision := rev }
  | openPin r => openPin { r with revision := rev }
  | orphan r => orphan { r with revision := rev }
  | lock r => lock { r with revision := rev }
  | xattr r => xattr { r with revision := rev }
  | xattrStaging r => xattrStaging { r with revision := rev }
  | mutation r => mutation { r with revision := rev }
  | writerLease r => writerLease { r with revision := rev }

/-- records.rs:277. -/
def retainedBytes : StateRecord → Nat
  | filesystem _ => 128
  | inode r => 256 + r.owner.bytes.length + r.group.bytes.length +
      match r.data with
      | .regularFile _ (some content) _ => content.manifestKey.text.length
      | .symlink target => target.bytes.length
      | _ => 0
  | contentMetadata r => r.retainedBytes
  | directoryEntry r => 96 + r.name.bytes.length
  | openInstance _ | openPin _ | orphan _ | lock _ => 128
  | xattr r => 96 + r.name.bytes.length + r.value.bytes.length
  | xattrStaging r => 112 + r.name.bytes.length + r.bytes.bytes.length
  | mutation r => 256 + r.result.bytes.length
  | writerLease _ => 128

/-- records.rs:323. -/
def validateAgainstLimits (limits : StateLimits) : StateRecord → Except StateLimitError Unit
  | inode r => do
    requireAtMost .principal r.owner.bytes.length limits.maxPrincipalBytes
    requireAtMost .group r.group.bytes.length limits.maxGroupBytes
    match r.data with
    | .symlink target => requireAtMost .symlink target.bytes.length limits.maxSymlinkBytes
    | _ => .ok ()
  | contentMetadata r => do
    requireAtMost .contentPolicy r.policyBytes.length limits.maxContentPolicyBytes
    requireAtMost .wrappedContentKey ((r.wrappedKeyBytes.map List.length).getD 0)
      limits.maxWrappedContentKeyBytes
    requireAtMost .contentMetadata r.retainedBytes limits.maxContentMetadataBytes
  | directoryEntry r => requireAtMost .entryName r.name.bytes.length limits.maxEntryNameBytes
  | xattr r => do
    requireAtMost .xattrName r.name.bytes.length limits.maxXattrNameBytes
    requireAtMost .xattrValue r.value.bytes.length limits.maxXattrValueBytes
  | xattrStaging r => do
    requireAtMost .xattrName r.name.bytes.length limits.maxXattrNameBytes
    requireAtMost .xattrValue r.expectedSize.toNat limits.maxXattrValueBytes
    requireAtMost .xattrValue r.bytes.bytes.length limits.maxXattrValueBytes
  | mutation r => requireAtMost .mutationResult r.result.bytes.length limits.maxMutationResultBytes
  | _ => .ok ()

@[simp] theorem revision_withRevision (rev : RecordRevision) (r : StateRecord) :
    (r.withRevision rev).revision = rev := by
  cases r <;> rfl

theorem family_of_matchesKey {r : StateRecord} {key : RecordKey} (h : matchesKey key r = true) :
    r.family = key.family := by
  cases key <;> cases r <;> first | rfl | cases h

theorem validateKey_eq_ok {r : StateRecord} {key : RecordKey} {u : Unit} :
    r.validateKey key = .ok u ↔ matchesKey key r = true := by
  simp only [validateKey, bind_eq_ok, ensure_eq_ok, exists_and_left, exists_const]
  exact ⟨And.right, fun h => ⟨family_of_matchesKey h, h⟩⟩

end StateRecord

end W9pt.State
