import W9pt.Lib.Fallible
import W9pt.Lib.Machine

/-!
# Filesystem requests and results (`w9pt/src/filesystem`, `w9pt/src/protocol`)

What a session asks of a filesystem and what it is answered, with no wire or storage
representation. A Rust `String` is its UTF-8 bytes: only lengths and bytes of names are inspected.

| here | there |
|---|---|
| `Qid`, the flag sets | `protocol/types.rs`, `protocol/flags.rs` |
| `SetAttributes`, `FileAttributes`, … | `protocol/structures.rs` |
| `FilesystemOperation` | `filesystem/request.rs:42-185` |
| `FilesystemResult` | `filesystem/response.rs:148-203` |
-/

namespace W9pt.Protocol

open Lib

/-! ## Identifiers and flags -/

/-- types.rs:7. -/
structure SessionId where
  get : UInt64
deriving DecidableEq

/-- Session-local identifier of one external operation (types.rs:23). -/
abbrev OperationId := UInt64

/-- Request and reply correlation tag (types.rs:57). -/
abbrev Tag := UInt16

/-- types.rs:61. -/
def notag : Tag := 0xffff

/-- File identifier of a session (types.rs:82). -/
abbrev Fid := UInt32

/-- types.rs:86. -/
def nofid : Fid := 0xffffffff

/-- Which backend handle a `Handle` is (filesystem/types.rs:23-34). -/
inductive HandleKind where
  | object | openInstance | xattr

structure Handle (kind : HandleKind) where
  get : BitVec 128
deriving DecidableEq

abbrev ObjectHandle := Handle .object
abbrev OpenHandle := Handle .openInstance
abbrev XattrHandle := Handle .xattr

/-- `contains` of the `bitset!` types (flags.rs:24). -/
def containsBits (flags other : UInt32) : Bool := flags &&& other == other

/-- Linux open flags (flags.rs:45). -/
structure OpenFlags where
  bits : UInt32
deriving DecidableEq

/-- Attributes selected by `Tsetattr` (flags.rs:129). -/
structure SetattrMask where
  bits : UInt32
deriving DecidableEq

namespace SetattrMask

def atime : UInt32 := 0x10
def mtime : UInt32 := 0x20
def atimeSet : UInt32 := 0x80
def mtimeSet : UInt32 := 0x100

def contains (mask : SetattrMask) (other : UInt32) : Bool := containsBits mask.bits other

end SetattrMask

/-- Attributes selected by `Tgetattr` (flags.rs:92). -/
structure GetattrMask where
  bits : UInt64
deriving DecidableEq

def GetattrMask.contains (mask : GetattrMask) (other : UInt64) : Bool := mask.bits &&& other == other

/-- flags.rs:161. -/
structure UnlinkFlags where
  bits : UInt32
deriving DecidableEq

def UnlinkFlags.removeDir : UInt32 := 0x200

/-- flags.rs:168. -/
structure XattrFlags where
  bits : UInt32
deriving DecidableEq

/-- Stable object identity (types.rs:147). -/
structure Qid where
  ty : UInt8
  version : UInt32
  path : UInt64

def Qid.directory : UInt8 := 0x80

/-- `QidType::contains` (types.rs:140). -/
def Qid.hasType (qid : Qid) (ty : UInt8) : Bool := qid.ty &&& ty == ty

/-- A promise of an attached export (filesystem/capability.rs:6); its bit is its position. -/
inductive Capability where
  | walk | open | create | mkdir | mknod | symlink | read | write | readdir | fsync | statfs
  | getattr | setattr | readlink | rename | renameAt | remove | unlinkAt | link | xattr | lock
  | stableIdentity | atomicAuthorization | atomicNamespace | atomicSetattr | positionedIo
  | openUnlinked | durableData | durableMetadata | crossSessionLocks | cancellation

/-- A capability set is its bits (filesystem/capability.rs:107). -/
structure CapabilitySet where
  bits : BitVec 128

/-- capability.rs:114. -/
def CapabilitySet.all : CapabilitySet := ⟨0x7fffffff⟩

/-- capability.rs:126. -/
def CapabilitySet.contains (set : CapabilitySet) (capability : Capability) : Bool :=
  set.bits.getLsbD capability.ctorIdx

/-! ## Structures -/

/-- structures.rs:8. -/
inductive StructureError where
  | invalidNanoseconds | unknownMaskBits | invalidComponentName | invalidXattrName
  | conflictingXattrFlags | unknownLockFlags

/-- structures.rs:29. -/
structure Statfs where
  ty : UInt32
  blockSize : UInt32
  blocks : UInt64
  blocksFree : UInt64
  blocksAvailable : UInt64
  files : UInt64
  filesFree : UInt64
  filesystemId : UInt64
  maxNameLength : UInt32

/-- structures.rs:52. -/
structure Timestamp where
  seconds : UInt64
  nanoseconds : UInt64
deriving DecidableEq

/-- structures.rs:61. -/
def Timestamp.isValid (t : Timestamp) : Bool := t.nanoseconds < 1000000000

/-- structures.rs:68. -/
structure FileAttributes where
  valid : GetattrMask
  qid : Qid
  mode : UInt32
  uid : UInt32
  gid : UInt32
  linkCount : UInt64
  device : UInt64
  size : UInt64
  blockSize : UInt64
  blocks : UInt64
  accessed : Timestamp
  modified : Timestamp
  changed : Timestamp
  created : Timestamp
  generation : UInt64
  dataVersion : UInt64

/-- structures.rs:105. -/
def FileAttributes.hasValidTimestamps (a : FileAttributes) : Bool :=
  (!a.valid.contains 0x20 || a.accessed.isValid) && (!a.valid.contains 0x40 || a.modified.isValid) &&
  (!a.valid.contains 0x80 || a.changed.isValid) && (!a.valid.contains 0x800 || a.created.isValid)

/-- structures.rs:113. -/
def FileAttributes.validate (a : FileAttributes) : Except StructureError Unit := do
  ensure (a.valid.bits &&& ~~~0x3fff = 0) .unknownMaskBits
  ensure a.hasValidTimestamps .invalidNanoseconds

/-- structures.rs:126. -/
structure SetAttributes where
  valid : SetattrMask
  mode : UInt32
  uid : UInt32
  gid : UInt32
  size : UInt64
  accessed : Timestamp
  modified : Timestamp
deriving DecidableEq

/-- structures.rs:145. -/
def SetAttributes.hasValidTimestamps (a : SetAttributes) : Bool :=
  (!a.valid.contains SetattrMask.atimeSet || a.accessed.isValid) &&
  (!a.valid.contains SetattrMask.mtimeSet || a.modified.isValid)

/-- structures.rs:151. -/
def SetAttributes.validate (a : SetAttributes) : Except StructureError Unit := do
  ensure (a.valid.bits &&& ~~~0x1ff = 0) .unknownMaskBits
  ensure (!(a.valid.contains SetattrMask.atimeSet && !a.valid.contains SetattrMask.atime))
    .unknownMaskBits
  ensure (!(a.valid.contains SetattrMask.mtimeSet && !a.valid.contains SetattrMask.mtime))
    .unknownMaskBits
  ensure a.hasValidTimestamps .invalidNanoseconds

/-- `validate_component` (structures.rs:281): nonempty, without `/` or NUL. -/
def validateComponent (name : Bytes) : Except StructureError Unit :=
  ensure (name ≠ [] ∧ (0x2f : UInt8) ∉ name ∧ (0 : UInt8) ∉ name) .invalidComponentName

/-- structures.rs:171. -/
structure DirectoryEntry where
  qid : Qid
  offset : UInt64
  ty : UInt8
  name : Bytes

inductive LockType where
  | read | write | unlock
deriving DecidableEq

inductive LockStatus where
  | success | blocked | error | grace

/-- structures.rs:191. -/
structure Lock where
  ty : LockType
  start : UInt64
  length : UInt64
  processId : UInt32
  clientId : Bytes
deriving DecidableEq

/-- structures.rs:206. -/
structure LockRequest where
  lock : Lock
  flags : UInt32
deriving DecidableEq

/-- structures.rs:215. -/
def LockRequest.validate (request : LockRequest) : Except StructureError Unit :=
  ensure (request.flags &&& ~~~0x3 = 0) .unknownLockFlags

/-- Identity of `Tauth` and `Tattach` (structures.rs:225). -/
structure UserIdentity where
  name : Bytes
  numericId : Option UInt32

/-- structures.rs:234. -/
def UserIdentity.fromWire (name : Bytes) (numericId : UInt32) : UserIdentity :=
  ⟨name, if numericId ≠ 0xffffffff then some numericId else none⟩

/-- `XattrName::new` (structures.rs:256). -/
def validateXattrName (name : Bytes) : Except StructureError Unit :=
  ensure (name ≠ [] ∧ (0 : UInt8) ∉ name) .invalidXattrName

/-- `XattrName::validate_flags` (structures.rs:270). -/
def XattrFlags.validate (flags : XattrFlags) : Except StructureError Unit := do
  ensure (flags.bits &&& ~~~0x3 = 0) .unknownMaskBits
  ensure (!(containsBits flags.bits 1 && containsBits flags.bits 2)) .conflictingXattrFlags

/-! ## Requests -/

/-- Who asks, on which export, over which session (filesystem/types.rs:70). -/
structure RequestContext where
  sessionId : SessionId
  principal : Bytes
  exportId : Bytes
deriving DecidableEq

/-- filesystem/request.rs:42. -/
inductive FilesystemOperation where
  | walk (start : ObjectHandle) (names : List Bytes)
  | release (object : ObjectHandle) (openInstance : Option OpenHandle) (xattr : Option XattrHandle)
  | open (object : ObjectHandle) (flags : OpenFlags)
  | create (directory : ObjectHandle) (name : Bytes) (flags : OpenFlags) (mode gid : UInt32)
  | mkdir (directory : ObjectHandle) (name : Bytes) (mode gid : UInt32)
  | mknod (directory : ObjectHandle) (name : Bytes) (mode major minor gid : UInt32)
  | symlink (directory : ObjectHandle) (name target : Bytes) (gid : UInt32)
  | read (openInstance : OpenHandle) (offset : UInt64) (count : UInt32)
  | write (openInstance : OpenHandle) (offset : UInt64) (data : Bytes)
  | readDir (openInstance : OpenHandle) (offset : UInt64) (count : UInt32)
  | fsync (openInstance : OpenHandle) (dataOnly : Bool)
  | statfs (object : ObjectHandle)
  | getattr (object : ObjectHandle) (mask : GetattrMask)
  | setattr (object : ObjectHandle) (attributes : SetAttributes)
  | readlink (object : ObjectHandle)
  | rename (object directory : ObjectHandle) (name : Bytes)
  | renameAt (oldDirectory : ObjectHandle) (oldName : Bytes) (newDirectory : ObjectHandle)
      (newName : Bytes)
  | remove (object : ObjectHandle) (openInstance : Option OpenHandle) (xattr : Option XattrHandle)
  | unlinkAt (directory : ObjectHandle) (name : Bytes) (flags : UnlinkFlags)
  | link (directory target : ObjectHandle) (name : Bytes)
  | xattrWalk (object : ObjectHandle) (name : Bytes)
  | xattrCreate (object : ObjectHandle) (name : Bytes) (size : UInt64) (flags : XattrFlags)
  | xattrRead (xattr : XattrHandle) (offset : UInt64) (count : UInt32)
  | xattrWrite (xattr : XattrHandle) (offset : UInt64) (data : Bytes)
  | xattrCommit (xattr : XattrHandle) (expectedSize : UInt64)
  | lock (openInstance : OpenHandle) (lock : LockRequest)
  | getlock (openInstance : OpenHandle) (lock : Lock)
deriving DecidableEq

/-- filesystem/request.rs:11. -/
structure FilesystemRequest where
  context : RequestContext
  operation : FilesystemOperation
deriving DecidableEq

/-- What an operation needs of the attached export (`require_for`, capability.rs:151-210). -/
def FilesystemOperation.required : FilesystemOperation → List Capability
  | walk .. => [.walk, .stableIdentity, .atomicAuthorization]
  | release .. => []
  | .open .. => [.open, .stableIdentity, .atomicAuthorization, .openUnlinked]
  | create .. => [.create, .stableIdentity, .atomicAuthorization, .atomicNamespace, .openUnlinked]
  | mkdir .. => [.mkdir, .atomicAuthorization, .atomicNamespace]
  | mknod .. => [.mknod, .atomicAuthorization, .atomicNamespace]
  | symlink .. => [.symlink, .atomicAuthorization, .atomicNamespace]
  | read .. => [.read, .atomicAuthorization, .positionedIo]
  | write .. => [.write, .atomicAuthorization, .positionedIo]
  | readDir .. => [.readdir, .atomicAuthorization]
  | fsync _ true => [.fsync, .durableData]
  | fsync _ false => [.fsync, .durableData, .durableMetadata]
  | statfs _ => [.statfs, .atomicAuthorization]
  | getattr .. => [.getattr, .atomicAuthorization]
  | setattr .. => [.setattr, .atomicAuthorization, .atomicSetattr]
  | readlink _ => [.readlink, .atomicAuthorization]
  | rename .. => [.rename, .atomicAuthorization, .atomicNamespace]
  | renameAt .. => [.renameAt, .atomicAuthorization, .atomicNamespace]
  | remove .. => [.remove, .atomicAuthorization, .atomicNamespace, .openUnlinked]
  | unlinkAt .. => [.unlinkAt, .atomicAuthorization, .atomicNamespace, .openUnlinked]
  | link .. => [.link, .atomicAuthorization, .atomicNamespace]
  | xattrWalk .. | xattrCreate .. | xattrRead .. | xattrWrite .. | xattrCommit .. =>
    [.xattr, .atomicAuthorization]
  | lock .. | getlock .. => [.lock, .atomicAuthorization, .crossSessionLocks]

/-- `require_for` (capability.rs:144): the first missing capability is the error. -/
def CapabilitySet.requireFor (set : CapabilitySet) (operation : FilesystemOperation) :
    Except Capability Unit :=
  operation.required.forM fun capability => ensure (set.contains capability) capability

/-- request.rs:222. -/
def FilesystemOperation.retainedBytes : FilesystemOperation → Nat
  | walk _ names => (names.map List.length).sum
  | create _ name .. | mkdir _ name .. | mknod _ name .. | rename _ _ name | unlinkAt _ name _
  | link _ _ name | xattrWalk _ name | xattrCreate _ name .. => name.length
  | symlink _ name target _ => name.length + target.length
  | write _ _ data | xattrWrite _ _ data => data.length
  | renameAt _ oldName _ newName => oldName.length + newName.length
  | lock _ request => request.lock.clientId.length
  | getlock _ query => query.clientId.length
  | release .. | .open .. | read .. | readDir .. | fsync .. | statfs _ | getattr .. | setattr ..
  | readlink _ | remove .. | xattrRead .. | xattrCommit .. => 0

/-- request.rs:29. -/
def FilesystemRequest.retainedBytes (request : FilesystemRequest) : Nat :=
  request.context.principal.length + request.context.exportId.length +
    request.operation.retainedBytes

/-! ## Results -/

/-- Export root chosen by attach policy (response.rs:9). -/
structure AttachResult where
  principal : Bytes
  exportId : Bytes
  root : ObjectHandle
  qid : Qid
  capabilities : CapabilitySet

/-- response.rs:24. -/
structure WalkElement where
  object : ObjectHandle
  qid : Qid

/-- response.rs:40. -/
structure OpenResult where
  qid : Qid
  openInstance : OpenHandle
  ioUnit : UInt32

/-- response.rs:51. -/
structure CreateResult where
  object : ObjectHandle
  qid : Qid
  openInstance : OpenHandle
  ioUnit : UInt32

/-- response.rs:64. -/
structure NodeResult where
  object : ObjectHandle
  qid : Qid

/-- response.rs:73. -/
structure XattrWalkResult where
  xattr : XattrHandle
  size : UInt64

/-- Discriminant of a result (response.rs:89). -/
inductive FilesystemResultKind where
  | walked | released | opened | created | directoryCreated | nodeCreated | symlinkCreated | read
  | written | directoryRead | synced | statfs | attributes | attributesSet | linkTarget | renamed
  | renamedAt | removed | unlinked | linked | xattrWalked | xattrCreated | xattrRead | xattrWritten
  | xattrCommitted | locked | lockQueried
deriving DecidableEq

/-- response.rs:148. -/
inductive FilesystemResult where
  | walked (elements : List WalkElement)
  | released
  | opened (result : OpenResult)
  | created (result : CreateResult)
  | directoryCreated (result : NodeResult)
  | nodeCreated (result : NodeResult)
  | symlinkCreated (result : NodeResult)
  | read (data : Bytes)
  | written (count : UInt32)
  | directoryRead (entries : List DirectoryEntry)
  | synced
  | statfs (result : Statfs)
  | attributes (result : FileAttributes)
  | attributesSet
  | linkTarget (target : Bytes)
  | renamed
  | renamedAt
  | removed
  | unlinked
  | linked
  | xattrWalked (result : XattrWalkResult)
  | xattrCreated (xattr : XattrHandle)
  | xattrRead (data : Bytes)
  | xattrWritten (count : UInt32)
  | xattrCommitted
  | locked (status : LockStatus)
  | lockQueried (lock : Lock)

/-- response.rs:207. -/
def FilesystemResult.kind : FilesystemResult → FilesystemResultKind
  | walked _ => .walked
  | released => .released
  | opened _ => .opened
  | created _ => .created
  | directoryCreated _ => .directoryCreated
  | nodeCreated _ => .nodeCreated
  | symlinkCreated _ => .symlinkCreated
  | read _ => .read
  | written _ => .written
  | directoryRead _ => .directoryRead
  | synced => .synced
  | statfs _ => .statfs
  | attributes _ => .attributes
  | attributesSet => .attributesSet
  | linkTarget _ => .linkTarget
  | renamed => .renamed
  | renamedAt => .renamedAt
  | removed => .removed
  | unlinked => .unlinked
  | linked => .linked
  | xattrWalked _ => .xattrWalked
  | xattrCreated _ => .xattrCreated
  | xattrRead _ => .xattrRead
  | xattrWritten _ => .xattrWritten
  | xattrCommitted => .xattrCommitted
  | locked _ => .locked
  | lockQueried _ => .lockQueried

/-- request.rs:189. -/
def FilesystemOperation.expectedResult : FilesystemOperation → FilesystemResultKind
  | walk .. => .walked
  | release .. => .released
  | .open .. => .opened
  | create .. => .created
  | mkdir .. => .directoryCreated
  | mknod .. => .nodeCreated
  | symlink .. => .symlinkCreated
  | read .. => .read
  | write .. => .written
  | readDir .. => .directoryRead
  | fsync .. => .synced
  | statfs _ => .statfs
  | getattr .. => .attributes
  | setattr .. => .attributesSet
  | readlink _ => .linkTarget
  | rename .. => .renamed
  | renameAt .. => .renamedAt
  | remove .. => .removed
  | unlinkAt .. => .unlinked
  | link .. => .linked
  | xattrWalk .. => .xattrWalked
  | xattrCreate .. => .xattrCreated
  | xattrRead .. => .xattrRead
  | xattrWrite .. => .xattrWritten
  | xattrCommit .. => .xattrCommitted
  | lock .. => .locked
  | getlock .. => .lockQueried

/-! ## Client-visible errors -/

/-- Linux errno (filesystem/error.rs:7). -/
structure LinuxErrno where
  code : UInt32

namespace LinuxErrno

def ENOENT : LinuxErrno := ⟨2⟩
def EIO : LinuxErrno := ⟨5⟩
def EBADF : LinuxErrno := ⟨9⟩
def ENOMEM : LinuxErrno := ⟨12⟩
def EEXIST : LinuxErrno := ⟨17⟩
def EXDEV : LinuxErrno := ⟨18⟩
def ENOTDIR : LinuxErrno := ⟨20⟩
def EINVAL : LinuxErrno := ⟨22⟩
def EPROTO : LinuxErrno := ⟨71⟩
def EOVERFLOW : LinuxErrno := ⟨75⟩
def EOPNOTSUPP : LinuxErrno := ⟨95⟩
def ECANCELED : LinuxErrno := ⟨125⟩

end LinuxErrno

/-- filesystem/error.rs:84. -/
structure FilesystemError where
  errno : LinuxErrno

end W9pt.Protocol
