import W9pt.Protocol.Types
import W9pt.Lib.Codec

/-!
# Messages, limits and errors of a connection (`protocol/message.rs`, `limits.rs`, `error.rs`)

| here | there |
|---|---|
| `MessageType` | `protocol/message_type.rs:6-120` |
| `RequestBody`, `ResponseBody` | `protocol/message.rs:27-153, 209-268` |
| `Limits`, `Accounting` | `limits.rs` |
| `DecodeError`, …, `CloseReason` | `error.rs` |
-/

namespace W9pt.Protocol

open Lib

/-! ## Message numbers -/

/-- message_type.rs:6. -/
inductive MessageType where
  | rlerror | tstatfs | rstatfs | tlopen | rlopen | tlcreate | rlcreate | tsymlink | rsymlink
  | tmknod | rmknod | trename | rrename | treadlink | rreadlink | tgetattr | rgetattr | tsetattr
  | rsetattr | txattrwalk | rxattrwalk | txattrcreate | rxattrcreate | treaddir | rreaddir | tfsync
  | rfsync | tlock | rlock | tgetlock | rgetlock | tlink | rlink | tmkdir | rmkdir | trenameat
  | rrenameat | tunlinkat | runlinkat | tversion | rversion | tauth | rauth | tattach | rattach
  | tflush | rflush | twalk | rwalk | tread | rread | twrite | rwrite | tclunk | rclunk | tremove
  | rremove

namespace MessageType

/-- The wire assignment (`#[repr(u8)]`, message_type.rs:6-120). -/
def toU8 : MessageType → UInt8
  | rlerror => 7 | tstatfs => 8 | rstatfs => 9 | tlopen => 12 | rlopen => 13 | tlcreate => 14
  | rlcreate => 15 | tsymlink => 16 | rsymlink => 17 | tmknod => 18 | rmknod => 19 | trename => 20
  | rrename => 21 | treadlink => 22 | rreadlink => 23 | tgetattr => 24 | rgetattr => 25
  | tsetattr => 26 | rsetattr => 27 | txattrwalk => 30 | rxattrwalk => 31 | txattrcreate => 32
  | rxattrcreate => 33 | treaddir => 40 | rreaddir => 41 | tfsync => 50 | rfsync => 51 | tlock => 52
  | rlock => 53 | tgetlock => 54 | rgetlock => 55 | tlink => 70 | rlink => 71 | tmkdir => 72
  | rmkdir => 73 | trenameat => 74 | rrenameat => 75 | tunlinkat => 76 | runlinkat => 77
  | tversion => 100 | rversion => 101 | tauth => 102 | rauth => 103 | tattach => 104 | rattach => 105
  | tflush => 108 | rflush => 109 | twalk => 110 | rwalk => 111 | tread => 116 | rread => 117
  | twrite => 118 | rwrite => 119 | tclunk => 120 | rclunk => 121 | tremove => 122 | rremove => 123

/-- `TryFrom<u8>` (message_type.rs:168). -/
def ofU8 (value : UInt8) : Option MessageType :=
  match value.toNat with
  | 7 => some rlerror | 8 => some tstatfs | 9 => some rstatfs | 12 => some tlopen
  | 13 => some rlopen | 14 => some tlcreate | 15 => some rlcreate | 16 => some tsymlink
  | 17 => some rsymlink | 18 => some tmknod | 19 => some rmknod | 20 => some trename
  | 21 => some rrename | 22 => some treadlink | 23 => some rreadlink | 24 => some tgetattr
  | 25 => some rgetattr | 26 => some tsetattr | 27 => some rsetattr | 30 => some txattrwalk
  | 31 => some rxattrwalk | 32 => some txattrcreate | 33 => some rxattrcreate | 40 => some treaddir
  | 41 => some rreaddir | 50 => some tfsync | 51 => some rfsync | 52 => some tlock
  | 53 => some rlock | 54 => some tgetlock | 55 => some rgetlock | 70 => some tlink
  | 71 => some rlink | 72 => some tmkdir | 73 => some rmkdir | 74 => some trenameat
  | 75 => some rrenameat | 76 => some tunlinkat | 77 => some runlinkat | 100 => some tversion
  | 101 => some rversion | 102 => some tauth | 103 => some rauth | 104 => some tattach
  | 105 => some rattach | 108 => some tflush | 109 => some rflush | 110 => some twalk
  | 111 => some rwalk | 116 => some tread | 117 => some rread | 118 => some twrite
  | 119 => some rwrite | 120 => some tclunk | 121 => some rclunk | 122 => some tremove
  | 123 => some rremove | _ => none

/-- message_type.rs:130. -/
def isRequest : MessageType → Bool
  | tstatfs | tlopen | tlcreate | tsymlink | tmknod | trename | treadlink | tgetattr | tsetattr
  | txattrwalk | txattrcreate | treaddir | tfsync | tlock | tgetlock | tlink | tmkdir | trenameat
  | tunlinkat | tversion | tauth | tattach | tflush | twalk | tread | twrite | tclunk | tremove => true
  | _ => false

theorem toU8_of_ofU8 {value : UInt8} {type : MessageType} (h : ofU8 value = some type) :
    type.toU8 = value := by
  have hall : ∀ n : Fin 256, (ofU8 (UInt8.ofNat n)).all (·.toU8 == UInt8.ofNat n) = true := by
    decide +kernel
  have hvalue := hall ⟨value.toNat, value.toNat_lt⟩
  rw [UInt8.ofNat_toNat, h] at hvalue
  simpa using hvalue

end MessageType

/-! ## Requests and replies -/

/-- message.rs:27. -/
inductive RequestBody where
  | version (msize : UInt32) (version : Bytes)
  | auth (afid : Fid) (uname aname : Bytes) (nUname : UInt32)
  | attach (fid afid : Fid) (uname aname : Bytes) (nUname : UInt32)
  | flush (oldTag : Tag)
  | walk (fid newFid : Fid) (names : List Bytes)
  | clunk (fid : Fid)
  | lopen (fid : Fid) (flags : OpenFlags)
  | lcreate (fid : Fid) (name : Bytes) (flags : OpenFlags) (mode gid : UInt32)
  | mkdir (directory : Fid) (name : Bytes) (mode gid : UInt32)
  | mknod (directory : Fid) (name : Bytes) (mode major minor gid : UInt32)
  | symlink (directory : Fid) (name target : Bytes) (gid : UInt32)
  | read (fid : Fid) (offset : UInt64) (count : UInt32)
  | write (fid : Fid) (offset : UInt64) (data : Bytes)
  | readdir (fid : Fid) (offset : UInt64) (count : UInt32)
  | fsync (fid : Fid) (dataOnly : Bool)
  | statfs (fid : Fid)
  | getattr (fid : Fid) (mask : GetattrMask)
  | setattr (fid : Fid) (attributes : SetAttributes)
  | readlink (fid : Fid)
  | rename (fid directory : Fid) (name : Bytes)
  | renameAt (oldDirectory : Fid) (oldName : Bytes) (newDirectory : Fid) (newName : Bytes)
  | remove (fid : Fid)
  | unlinkAt (directory : Fid) (name : Bytes) (flags : UnlinkFlags)
  | link (directory target : Fid) (name : Bytes)
  | xattrWalk (fid newFid : Fid) (name : Bytes)
  | xattrCreate (fid : Fid) (name : Bytes) (size : UInt64) (flags : XattrFlags)
  | lock (fid : Fid) (request : LockRequest)
  | getlock (fid : Fid) (query : Lock)
deriving DecidableEq

/-- message.rs:10. -/
structure Request where
  tag : Tag
  body : RequestBody
deriving DecidableEq

/-- message.rs:209. -/
inductive ResponseBody where
  | version (msize : UInt32) (version : Bytes)
  | auth (qid : Qid)
  | attach (qid : Qid)
  | flush
  | walk (qids : List Qid)
  | clunk
  | lopen (qid : Qid) (ioUnit : UInt32)
  | lcreate (qid : Qid) (ioUnit : UInt32)
  | mkdir (qid : Qid)
  | mknod (qid : Qid)
  | symlink (qid : Qid)
  | read (data : Bytes)
  | write (count : UInt32)
  | readdir (data : Bytes)
  | fsync
  | statfs (statfs : Statfs)
  | getattr (attributes : FileAttributes)
  | setattr
  | readlink (target : Bytes)
  | rename
  | renameAt
  | remove
  | unlinkAt
  | link
  | xattrWalk (size : UInt64)
  | xattrCreate
  | lock (status : LockStatus)
  | getlock (conflict : Lock)
  | lerror (errno : LinuxErrno)

/-- message.rs:272. -/
def ResponseBody.messageType : ResponseBody → MessageType
  | version .. => .rversion
  | auth _ => .rauth
  | attach _ => .rattach
  | flush => .rflush
  | walk _ => .rwalk
  | clunk => .rclunk
  | lopen .. => .rlopen
  | lcreate .. => .rlcreate
  | mkdir _ => .rmkdir
  | mknod _ => .rmknod
  | symlink _ => .rsymlink
  | read _ => .rread
  | write _ => .rwrite
  | readdir _ => .rreaddir
  | fsync => .rfsync
  | statfs _ => .rstatfs
  | getattr _ => .rgetattr
  | setattr => .rsetattr
  | readlink _ => .rreadlink
  | rename => .rrename
  | renameAt => .rrenameat
  | remove => .rremove
  | unlinkAt => .runlinkat
  | link => .rlink
  | xattrWalk _ => .rxattrwalk
  | xattrCreate => .rxattrcreate
  | lock _ => .rlock
  | getlock _ => .rgetlock
  | lerror _ => .rlerror

/-- message.rs:192. -/
structure Response where
  tag : Tag
  body : ResponseBody

/-! ## Limits -/

/-- Bounds on what a peer can make a session retain (limits.rs:10). -/
structure Limits where
  maxFrameSize : UInt32
  maxBufferedInputBytes : Nat
  maxQueuedEffects : Nat
  maxQueuedEffectBytes : Nat
  maxInFlightTags : Nat
  maxFids : Nat
  maxWalkElements : Nat
  maxStringBytes : Nat
  maxPendingWriteBytes : Nat

/-- limits.rs:89. -/
inductive InvalidLimits where
  | tooSmall (field : String)
  | tooLarge (field : String)
  | inconsistent (smaller larger : String)

/-- limits.rs:37. -/
def Limits.validate (limits : Limits) : Except InvalidLimits Unit := do
  ensure (7 ≤ limits.maxFrameSize) (.tooSmall "max_frame_size")
  [("max_buffered_input_bytes", limits.maxBufferedInputBytes),
    ("max_queued_effects", limits.maxQueuedEffects),
    ("max_queued_effect_bytes", limits.maxQueuedEffectBytes),
    ("max_in_flight_tags", limits.maxInFlightTags),
    ("max_fids", limits.maxFids),
    ("max_walk_elements", limits.maxWalkElements),
    ("max_string_bytes", limits.maxStringBytes),
    ("max_pending_write_bytes", limits.maxPendingWriteBytes)].forM fun (name, value) =>
      ensure (value ≠ 0) (.tooSmall name)
  ensure (limits.maxFrameSize.toNat ≤ limits.maxBufferedInputBytes)
    (.inconsistent "max_buffered_input_bytes" "max_frame_size")
  ensure (limits.maxStringBytes ≤ 65535) (.tooLarge "max_string_bytes")
  ensure (limits.maxWalkElements ≤ 65535) (.tooLarge "max_walk_elements")

/-- limits.rs:119. -/
inductive LimitKind where
  | bufferedInput | frame | queuedEffects | queuedEffectBytes | inFlightTags | fids | walkElements
  | stringBytes | pendingWriteBytes

/-- limits.rs:142. -/
structure LimitExceeded where
  kind : LimitKind
  limit : Nat
  requested : Nat

/-- Counters of retained state (limits.rs:165). -/
structure Accounting where
  queuedEffects : Nat
  queuedEffectBytes : Nat
  inFlightTags : Nat
  fids : Nat
  pendingWriteBytes : Nat

namespace Accounting

/-- `usize::MAX` of a 64-bit host. -/
def usizeMax : Nat := 2 ^ 64 - 1

/-- The total `reserve` asks for, or why it is refused (limits.rs:174). -/
def reserve (current amount limit : Nat) (kind : LimitKind) : Except LimitExceeded Nat :=
  if usizeMax < current + amount then .error ⟨kind, limit, usizeMax⟩
  else if limit < current + amount then .error ⟨kind, limit, current + amount⟩
  else .ok (current + amount)

/-- `release` (limits.rs:196): saturating. -/
def release (current amount : Nat) : Nat := current - amount

theorem reserve_eq_ok {current amount limit total : Nat} {kind : LimitKind}
    (h : reserve current amount limit kind = .ok total) :
    total = current + amount ∧ total ≤ limit := by
  unfold reserve at h
  split_ifs at h with hmax hlimit
  cases h
  exact ⟨rfl, by omega⟩

end Accounting

/-! ## Errors -/

/-- error.rs:14. -/
inductive DecodeError where
  | incomplete (needed available : Nat)
  | frameTooSmall (size : UInt32)
  | frameTooLarge (size maximum : UInt32)
  | lengthMismatch (declared : UInt32) (actual : Nat)
  | unknownMessageType (raw : UInt8)
  | unexpectedResponse (raw : UInt8)
  | invalidUtf8 (offset : Nat)
  | stringTooLong (length maximum : Nat)
  | countTooLarge (kind : String) (count maximum : Nat)
  | arithmeticOverflow
  | invalidValue (field : String)
  | trailingBytes (remaining : Nat)
deriving DecidableEq

/-- error.rs:56. -/
inductive EncodeError where
  | frameTooLarge (size : Nat) (maximum : UInt32)
  | stringTooLong (length maximum : Nat)
  | countTooLarge (kind : String) (count maximum : Nat)
  | arithmeticOverflow
  | invalidValue (field : String)

/-- error.rs:83. -/
inductive SessionError where
  | invalidConfig (error : InvalidLimits)
  | decode (error : DecodeError)
  | encode (error : EncodeError)
  | closing
  | limit (error : LimitExceeded)
  | operationIdExhausted

/-- error.rs:132. -/
inductive SessionStateError where
  | notNegotiated | duplicateTag | invalidTag | unknownFid | duplicateFid | fidAlreadyOpen
  | fidNotOpen | wrongFidKind | unsupported | invalidRequest | resourceExhausted

/-- error.rs:159. -/
def SessionStateError.errno : SessionStateError → LinuxErrno
  | notNegotiated => .EPROTO
  | duplicateTag | invalidTag | fidAlreadyOpen | wrongFidKind | invalidRequest => .EINVAL
  | unknownFid | fidNotOpen => .EBADF
  | duplicateFid => .EEXIST
  | unsupported => .EOPNOTSUPP
  | resourceExhausted => .ENOMEM

/-- error.rs:186. -/
inductive CompletionError where
  | unknownOperation (operationId : OperationId)
  | duplicateOperation (operationId : OperationId)
  | wrongKind (operationId : OperationId) (expected actual : String)

/-- error.rs:209. -/
inductive CloseReason where
  | malformedInput (error : DecodeError)
  | hostShutdown
  | protocolViolation (reason : String)
  | resourceExhausted

end W9pt.Protocol
