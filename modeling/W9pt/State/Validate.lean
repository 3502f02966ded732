import W9pt.State.Records

/-!
# `validate_record_set_with_limits` (records.rs:1686-2064)

A complete authority image is accepted by two passes over the map. The first checks each record
against its key and its related records, remembering the cookies, QID paths, locks and content
contexts it has met; the second counts the entries and pins of each inode. The loops are
`List.foldlM` and `List.forM` over the map in key order, so the first error reported is the one
the Rust loop reports.

`BTreeSet::insert` returning `false` is membership in the list of what was met before.
-/

namespace W9pt.State

open Lib

section

variable (records : RecordMap) (fs : FilesystemId)

/-- records.rs:2056. -/
def requireInode (inode : InodeId) (relation : String) :
    Except RecordValidationError InodeRecord :=
  match records[RecordKey.inode fs inode]? with
  | some (.inode record) => .ok record
  | _ => .error (.missingRelatedRecord relation)

/-- The header lookup `let Some(StateRecord::Filesystem(..)) = … else`. -/
def requireFilesystem (relation : String) :
    Except RecordValidationError FilesystemRecord :=
  match records[RecordKey.filesystem fs]? with
  | some (.filesystem record) => .ok record
  | _ => .error (.missingRelatedRecord relation)

/-- The open lookup of pins and locks. -/
def requireOpen (openId : OpenId) (relation : String) :
    Except RecordValidationError OpenRecord :=
  match records[RecordKey.openInstance fs openId]? with
  | some (.openInstance record) => .ok record
  | _ => .error (.missingRelatedRecord relation)

end

/-- A key is an open pin of the inode. -/
def RecordKey.isPinOf (fs : FilesystemId) (inode : InodeId) : RecordKey → Bool
  | .openPin f i _ => f == fs && i == inode
  | _ => false

/-- The number of durable open pins of an inode. -/
def pinCount (records : RecordMap) (fs : FilesystemId) (inode : InodeId) : Nat :=
  (records.keys.filter (RecordKey.isPinOf fs inode)).length

/-- The entry of a directory-entry record that names the inode. -/
def entryNaming (fs : FilesystemId) (inode : InodeId) :
    RecordKey × StateRecord → Option DirectoryEntryRecord
  | (.directoryEntry f _ _, .directoryEntry entry) =>
    if f = fs ∧ entry.childInodeId = inode then some entry else none
  | _ => none

/-- records.rs:1932. -/
def namespaceEntries (records : RecordMap) (fs : FilesystemId) (inode : InodeId) :
    List DirectoryEntryRecord :=
  records.toList.filterMap (entryNaming fs inode)

/-- A key is an entry lying in the directory. -/
def RecordKey.isEntryIn (fs : FilesystemId) (parent : InodeId) : RecordKey → Bool
  | .directoryEntry f p _ => f == fs && p == parent
  | _ => false

/-! ## Directory ancestry -/

/-- The loop of `validate_directory_ancestry` (records.rs:2018); the fuel is the number of
iterations left. -/
def ancestryWalk (records : RecordMap) (fs : FilesystemId) (start root : InodeId) (maximum : Nat) :
    Nat → InodeId → List InodeId → Except RecordValidationError Unit
  | 0, _, _ => .error (.directoryAncestorLimit maximum)
  | fuel + 1, current, visited => do
    ensure (current ∉ visited) (.directoryCycle start)
    let inode ← requireInode records fs current "directory ancestor inode"
    let parent ← okOr inode.directoryParent
      (.invalidRelatedRecord "directory ancestor is not a directory")
    if current = root then
      ensure (parent = root)
        (.invalidRelatedRecord "filesystem root directory is not self-parented")
    else
      ancestryWalk records fs start root maximum fuel parent (current :: visited)

/-- `validate_directory_ancestry`: `0..=maximum_depth` iterations. -/
def validateDirectoryAncestry (records : RecordMap) (fs : FilesystemId) (inode root : InodeId)
    (maximum : Nat) : Except RecordValidationError Unit :=
  ancestryWalk records fs inode root maximum (maximum + 1) inode []

/-! ## First pass -/

/-- What the first pass remembers. -/
structure Seen where
  directoryCookies : List (FilesystemId × InodeId × DirectoryCookie) := []
  qidPaths : List (FilesystemId × QidPath) := []
  locks : List (FilesystemId × LockRecord) := []
  contentContexts : List (FilesystemId × ContentContextId) := []
  contentOwners : List (FilesystemId × InodeId) := []

section FirstPass

variable (records : RecordMap) (limits : StateLimits) (fs : FilesystemId) (seen : Seen)

/-- The arm of a filesystem header. -/
def checkFilesystem (filesystem : FilesystemRecord) : Except RecordValidationError Unit := do
  let root ← requireInode records fs filesystem.rootInodeId "filesystem root inode"
  ensure (root.kind = .directory) (.invalidRelatedRecord "filesystem root is not a directory")
  ensure (root.directoryParent = some root.inodeId)
    (.invalidRelatedRecord "filesystem root directory is not self-parented")

/-- The arm of a directory entry. -/
def checkDirectoryEntry (entry : DirectoryEntryRecord) : Except RecordValidationError Seen := do
  let parent ← requireInode records fs entry.parentInodeId "directory-entry parent inode"
  ensure (parent.kind = .directory)
    (.invalidRelatedRecord "directory-entry parent is not a directory")
  ensure (RecordKey.inode fs entry.childInodeId ∈ records)
    (.missingRelatedRecord "directory-entry child inode")
  let filesystem ← requireFilesystem records fs "directory-entry filesystem header"
  ensure (entry.cookie.get < filesystem.nextDirectoryCookie.get)
    (.invalidRelatedRecord "directory-entry cookie was not allocated before next cookie")
  ensure ((fs, entry.parentInodeId, entry.cookie) ∉ seen.directoryCookies)
    (.invalidRelatedRecord "duplicate directory cookie")
  return { seen with
    directoryCookies := (fs, entry.parentInodeId, entry.cookie) :: seen.directoryCookies }

/-- The arm of an open pin. -/
def checkOpenPin (pin : OpenPinRecord) : Except RecordValidationError Unit := do
  let _ ← requireInode records fs pin.inodeId "open-pin inode"
  let instance_ ← requireOpen records fs pin.openId "open-pin open"
  ensure (instance_.inodeId = pin.inodeId)
    (.invalidRelatedRecord "open-pin inode differs from open inode")

/-- The arm of an orphan record. -/
def checkOrphan (orphan : OrphanRecord) : Except RecordValidationError Unit := do
  let inode ← requireInode records fs orphan.inodeId "orphan inode"
  ensure (inode.linkCount = 0) (.invalidRelatedRecord "orphan inode still has links")
  ensure (pinCount records fs orphan.inodeId = orphan.openPinCount.toNat)
    (.invalidRelatedRecord "orphan open-pin count mismatch")

/-- The arm of a lock. -/
def checkLock (lock : LockRecord) : Except RecordValidationError Seen := do
  let _ ← requireInode records fs lock.inodeId "lock inode"
  let instance_ ← requireOpen records fs lock.owner.openId "lock owner open"
  ensure (instance_.inodeId = lock.inodeId ∧
      instance_.clientIncarnation = lock.owner.clientIncarnation)
    (.invalidRelatedRecord "lock owner differs from portable open")
  ensure (∀ held ∈ seen.locks, ¬ (held.1 = fs ∧ lock.conflictsWith held.2 = true))
    (.invalidRelatedRecord "conflicting byte-range locks coexist")
  return { seen with locks := (fs, lock) :: seen.locks }

/-- The parent of a linked directory, and its ancestry. -/
def checkDirectoryParent (filesystem : FilesystemRecord) (inode : InodeRecord) :
    Except RecordValidationError Unit :=
  match inode.directoryParent with
  | some parentId =>
    if inode.linkCount ≠ 0 then do
      let parent ← requireInode records fs parentId "directory parent inode"
      ensure (parent.kind = .directory)
        (.invalidRelatedRecord "directory parent is not a directory")
      validateDirectoryAncestry records fs inode.inodeId filesystem.rootInodeId
        limits.maxDirectoryAncestorDepth
    else .ok ()
  | none => .ok ()

/-- The content metadata of a regular file. -/
def checkContentBinding (inode : InodeRecord) : Except RecordValidationError Unit :=
  match inode.contentFileId with
  | some fileId => do
    let contextId ← okOr inode.contentContextId
      (.missingRelatedRecord "regular inode content context")
    match records[RecordKey.contentMetadata fs fileId]? with
    | some (.contentMetadata metadata) =>
      ensure (metadata.ownerInodeId = inode.inodeId ∧ metadata.contextId = contextId)
        (.invalidRelatedRecord "inode content context binding")
    | _ => .error (.missingRelatedRecord "regular inode content metadata")
  | none => .ok ()

/-- The arm of an inode. -/
def checkInode (inode : InodeRecord) : Except RecordValidationError Seen := do
  let filesystem ← requireFilesystem records fs "inode filesystem header"
  ensure (inode.qidPath.get < filesystem.nextQidPath.get)
    (.invalidRelatedRecord "inode QID path was not allocated before next QID path")
  ensure ((fs, inode.qidPath) ∉ seen.qidPaths) (.invalidRelatedRecord "duplicate inode QID path")
  checkDirectoryParent records limits fs filesystem inode
  checkContentBinding records fs inode
  return { seen with qidPaths := (fs, inode.qidPath) :: seen.qidPaths }

/-- The owner of content metadata, when it still exists, is bound back to it. -/
def checkContentOwner (metadata : ContentMetadataRecord) : Except RecordValidationError Unit :=
  match records[RecordKey.inode fs metadata.ownerInodeId]? with
  | some (.inode owner) =>
    ensure (owner.kind = .regularFile ∧ owner.contentFileId = some metadata.contentFileId ∧
        owner.contentContextId = some metadata.contextId)
      (.invalidRelatedRecord "content metadata owner binding")
  | _ => .ok ()

/-- The arm of content metadata. -/
def checkContentMetadata (metadata : ContentMetadataRecord) :
    Except RecordValidationError Seen := do
  ensure ((fs, metadata.contextId) ∉ seen.contentContexts)
    (.invalidRelatedRecord "duplicate content context identity")
  ensure ((fs, metadata.ownerInodeId) ∉ seen.contentOwners)
    (.invalidRelatedRecord "duplicate content metadata owner")
  checkContentOwner records fs metadata
  return { seen with
    contentContexts := (fs, metadata.contextId) :: seen.contentContexts
    contentOwners := (fs, metadata.ownerInodeId) :: seen.contentOwners }

end FirstPass

/-- One iteration of the first pass. -/
def checkRecord (records : RecordMap) (limits : StateLimits) (seen : Seen)
    (item : RecordKey × StateRecord) : Except RecordValidationError Seen := do
  let (key, record) := item
  record.validateKey key
  let fs := key.filesystemId
  match record with
  | .filesystem filesystem => do checkFilesystem records fs filesystem; return seen
  | .directoryEntry entry => checkDirectoryEntry records fs seen entry
  | .openInstance instance_ => do
    let _ ← requireInode records fs instance_.inodeId "open inode"; return seen
  | .openPin pin => do checkOpenPin records fs pin; return seen
  | .orphan orphan => do checkOrphan records fs orphan; return seen
  | .lock lock => checkLock records fs seen lock
  | .xattr xattr => do let _ ← requireInode records fs xattr.inodeId "xattr inode"; return seen
  | .xattrStaging staging => do
    let _ ← requireInode records fs staging.inodeId "xattr-staging inode"; return seen
  | .inode inode => checkInode records limits fs seen inode
  | .contentMetadata metadata => checkContentMetadata records fs seen metadata
  | .mutation _ | .writerLease _ => return seen

/-! ## Second pass -/

section

variable (records : RecordMap) (fs : FilesystemId) (inodeId : InodeId)

/-- The entries naming a directory. -/
def checkDirectoryLinks (inode : InodeRecord) : Except RecordValidationError Unit := do
  let filesystem ← requireFilesystem records fs "directory filesystem header"
  let entries := namespaceEntries records fs inodeId
  if inodeId = filesystem.rootInodeId then
    ensure (entries.length = 0)
      (.invalidRelatedRecord "filesystem root directory has a namespace hard link")
  else if inode.linkCount = 0 then do
    ensure (entries = []) (.invalidRelatedRecord "orphan directory still has a namespace entry")
    ensure (∀ key ∈ records.keys, key.isEntryIn fs inodeId = false)
      (.invalidRelatedRecord "orphan directory is not empty")
  else
    ensure (entries.map (fun entry => some entry.parentInodeId) = [inode.directoryParent])
      (.invalidRelatedRecord "directory must have exactly one entry in its authoritative parent")

/-- A zero-link inode is pinned and has its orphan record. -/
def checkZeroLink :
    Except RecordValidationError Unit := do
  ensure (pinCount records fs inodeId ≠ 0)
    (.invalidRelatedRecord "unpinned zero-link inode was not retired")
  match records[RecordKey.orphan fs inodeId]? with
  | some (.orphan _) => .ok ()
  | _ => .error (.missingRelatedRecord "pinned zero-link inode orphan")

/-- The link count of an inode against the entries naming it. -/
def checkLinkCount (inode : InodeRecord) : Except RecordValidationError Unit :=
  if inode.kind ≠ .directory then
    ensure ((namespaceEntries records fs inodeId).length = inode.linkCount.toNat)
      (.invalidRelatedRecord "inode link count differs from namespace references")
  else
    checkDirectoryLinks records fs inodeId inode

end

/-- One iteration of the second pass. -/
def checkLinks (records : RecordMap) :
    RecordKey × StateRecord → Except RecordValidationError Unit
  | (.inode fs inodeId, .inode inode) => do
    checkLinkCount records fs inodeId inode
    if inode.linkCount ≠ 0 then .ok () else checkZeroLink records fs inodeId
  | _ => .ok ()

/-- records.rs:1686. -/
def validateRecordSetWithLimits (records : RecordMap) (limits : StateLimits) :
    Except RecordValidationError Unit := do
  let _ ← records.toList.foldlM (checkRecord records limits) {}
  records.toList.forM (checkLinks records)

end W9pt.State
