import W9pt.Protocol.Messages
import W9pt.Lib.Parser

/-!
# The wire codec (`protocol/codec.rs`) and stream framing (`protocol/frame.rs`)

A frame is `size[4] type[1] tag[2] body`, little endian, where `size` counts the whole frame.
-/

namespace W9pt.Protocol

open Lib

/-! ## Reading -/

/-- What is left of a frame, and how much of it has been read (codec.rs:14). -/
structure Cursor where
  rest : Bytes
  offset : Nat

/-- A checked read from a cursor. -/
abbrev Reader := StateT Cursor (Except DecodeError)

namespace Reader

/-- codec.rs:28. -/
def take (count : Nat) : Reader Bytes := fun cursor =>
  if count ≤ cursor.rest.length then
    .ok (cursor.rest.take count, ⟨cursor.rest.drop count, cursor.offset + count⟩)
  else .error (.incomplete count cursor.rest.length)

/-- `u8` (codec.rs:44). -/
def u8 : Reader UInt8 := do return UInt8.ofNat (leValue (← take 1))

/-- `u16` (codec.rs:48). -/
def u16 : Reader UInt16 := do return UInt16.ofNat (leValue (← take 2))

/-- `u32` (codec.rs:54). -/
def u32 : Reader UInt32 := do return UInt32.ofNat (leValue (← take 4))

/-- `u64` (codec.rs:60). -/
def u64 : Reader UInt64 := do return UInt64.ofNat (leValue (← take 8))

def position : Reader Nat := fun cursor => .ok (cursor.offset, cursor)

/-- A check of what was read. -/
def check (p : Prop) [Decidable p] (error : DecodeError) : Reader Unit := fun cursor =>
  if p then .ok ((), cursor) else .error error

/-- A structure check, its error translated (`map_structure_error`, codec.rs:499). -/
def checked (result : Except StructureError Unit) : Reader Unit := fun cursor =>
  match result with
  | .ok () => .ok ((), cursor)
  | .error .invalidNanoseconds => .error (.invalidValue "nanoseconds")
  | .error .unknownMaskBits => .error (.invalidValue "mask bits")
  | .error .invalidComponentName => .error (.invalidValue "path component")
  | .error .invalidXattrName => .error (.invalidValue "xattr name")
  | .error .conflictingXattrFlags => .error (.invalidValue "xattr flags")
  | .error .unknownLockFlags => .error (.invalidValue "lock flags")

/-- codec.rs:66. -/
def string (maximum : Nat) : Reader Bytes := do
  let length := (← u16).toNat
  check (length ≤ maximum) (.stringTooLong length maximum)
  let offset ← position
  let value ← take length
  check (isUtf8 value = true) (.invalidUtf8 offset)
  return value

/-- A validated path component (`validate_component_name`, codec.rs:492). -/
def component (maximum : Nat) : Reader Bytes := do
  let name ← string maximum
  checked (validateComponent name)
  return name

/-- The walk loop (codec.rs:250-252). -/
def components (maximum : Nat) : Nat → Reader (List Bytes)
  | 0 => pure []
  | count + 1 => do
    let name ← component maximum
    let names ← components maximum count
    return name :: names

/-- `LockType::try_from` (flags.rs:190). -/
def lockType : Reader LockType := do
  let value ← u8
  if value = 0 then return .read
  else if value = 1 then return .write
  else if value = 2 then return .unlock
  else throw (.invalidValue "lock type")

/-- codec.rs:81. -/
def finish : Reader Unit := fun cursor =>
  if cursor.rest = [] then .ok ((), cursor) else .error (.trailingBytes cursor.rest.length)

end Reader

/-! ## Requests -/

open Reader in
/-- The `match message_type` of `decode_request` (codec.rs:217-487). -/
def decodeBody (limits : Limits) (raw : UInt8) : MessageType → Reader RequestBody
  | .tversion => do return .version (← u32) (← string limits.maxStringBytes)
  | .tauth => do
    return .auth (← u32) (← string limits.maxStringBytes) (← string limits.maxStringBytes) (← u32)
  | .tattach => do
    return .attach (← u32) (← u32) (← string limits.maxStringBytes)
      (← string limits.maxStringBytes) (← u32)
  | .tflush => do return .flush (← u16)
  | .twalk => do
    let fid ← u32
    let newFid ← u32
    let count := (← u16).toNat
    check (count ≤ limits.maxWalkElements)
      (.countTooLarge "walk elements" count limits.maxWalkElements)
    return .walk fid newFid (← components limits.maxStringBytes count)
  | .tclunk => do return .clunk (← u32)
  | .tlopen => do return .lopen (← u32) ⟨← u32⟩
  | .tlcreate => do
    return .lcreate (← u32) (← component limits.maxStringBytes) ⟨← u32⟩ (← u32) (← u32)
  | .tmkdir => do return .mkdir (← u32) (← component limits.maxStringBytes) (← u32) (← u32)
  | .tmknod => do
    return .mknod (← u32) (← component limits.maxStringBytes) (← u32) (← u32) (← u32) (← u32)
  | .tsymlink => do
    return .symlink (← u32) (← component limits.maxStringBytes) (← string limits.maxStringBytes)
      (← u32)
  | .tread => do return .read (← u32) (← u64) (← u32)
  | .twrite => do
    let fid ← u32
    let offset ← u64
    let count := (← u32).toNat
    check (count ≤ limits.maxPendingWriteBytes)
      (.countTooLarge "write bytes" count limits.maxPendingWriteBytes)
    return .write fid offset (← take count)
  | .treaddir => do return .readdir (← u32) (← u64) (← u32)
  | .tfsync => do
    let fid ← u32
    let dataOnly ← u32
    check (dataOnly = 0 ∨ dataOnly = 1) (.invalidValue "fsync datasync")
    return .fsync fid (dataOnly == 1)
  | .tstatfs => do return .statfs (← u32)
  | .tgetattr => do
    let fid ← u32
    let mask ← u64
    check (mask &&& ~~~0x3fff = 0) (.invalidValue "getattr mask")
    return .getattr fid ⟨mask⟩
  | .tsetattr => do
    let fid ← u32
    let attributes : SetAttributes :=
      ⟨⟨← u32⟩, ← u32, ← u32, ← u32, ← u64, ⟨← u64, ← u64⟩, ⟨← u64, ← u64⟩⟩
    checked attributes.validate
    return .setattr fid attributes
  | .treadlink => do return .readlink (← u32)
  | .trename => do return .rename (← u32) (← u32) (← component limits.maxStringBytes)
  | .trenameat => do
    return .renameAt (← u32) (← component limits.maxStringBytes) (← u32)
      (← component limits.maxStringBytes)
  | .tremove => do return .remove (← u32)
  | .tunlinkat => do
    let directory ← u32
    let name ← component limits.maxStringBytes
    let flags ← u32
    check (flags &&& ~~~UnlinkFlags.removeDir = 0) (.invalidValue "unlink flags")
    return .unlinkAt directory name ⟨flags⟩
  | .tlink => do return .link (← u32) (← u32) (← component limits.maxStringBytes)
  | .txattrwalk => do return .xattrWalk (← u32) (← u32) (← string limits.maxStringBytes)
  | .txattrcreate => do
    let fid ← u32
    let name ← string limits.maxStringBytes
    checked (validateXattrName name)
    let size ← u64
    let flags : XattrFlags := ⟨← u32⟩
    checked flags.validate
    return .xattrCreate fid name size flags
  | .tlock => do
    let fid ← u32
    let ty ← lockType
    let flags ← u32
    let request : LockRequest :=
      ⟨⟨ty, ← u64, ← u64, ← u32, ← string limits.maxStringBytes⟩, flags⟩
    checked request.validate
    return .lock fid request
  | .tgetlock => do
    return .getlock (← u32) ⟨← lockType, ← u64, ← u64, ← u32, ← string limits.maxStringBytes⟩
  | _ => throw (.unexpectedResponse raw)

/-- The declared size of a frame or of its beginning (`u32::from_le_bytes(frame[..4])`). -/
def declaredSize (frame : Bytes) : UInt32 := UInt32.ofNat (leValue (frame.take 4))

/-- codec.rs:178. -/
def validateFrame (frame : Bytes) (maximum : UInt32) : Except DecodeError Unit := do
  ensure (4 ≤ frame.length) (.incomplete 4 frame.length)
  ensure (7 ≤ declaredSize frame) (.frameTooSmall (declaredSize frame))
  ensure (declaredSize frame ≤ maximum) (.frameTooLarge (declaredSize frame) maximum)
  ensure ((declaredSize frame).toNat = frame.length)
    (.lengthMismatch (declaredSize frame) frame.length)

/-- The body of `decode_request` after the outer checks (codec.rs:207-490). -/
def readRequest (limits : Limits) : Reader Request := do
  let _ ← Reader.u32
  let raw ← Reader.u8
  let some type := MessageType.ofU8 raw | throw (.unknownMessageType raw)
  Reader.check (type.isRequest = true) (.unexpectedResponse raw)
  let tag ← Reader.u16
  let body ← decodeBody limits raw type
  Reader.finish
  return ⟨tag, body⟩

/-- codec.rs:205. -/
def decodeRequest (frame : Bytes) (limits : Limits) (maximum : UInt32) :
    Except DecodeError Request := do
  validateFrame frame maximum
  let (request, _) ← (readRequest limits).run ⟨frame, 0⟩
  return request

/-! ## Replies -/

/-- Appends to a frame, refusing to cross `maximum` (`Writer`, codec.rs:92-175). -/
abbrev Write := Bytes → Except EncodeError Bytes

namespace Write

variable (maximum : UInt32)

/-- `extend` with its `reserve` (codec.rs:115, 164). -/
def extend (bytes : Bytes) : Write := fun written => do
  ensure (written.length + bytes.length ≤ maximum.toNat)
    (.frameTooLarge (written.length + bytes.length) maximum)
  return written ++ bytes

def u8 (value : UInt8) : Write := extend maximum [value]

def u16 (value : Nat) : Write := extend maximum (leBytes 2 value)

def u32 (value : UInt32) : Write := extend maximum (leBytes 4 value.toNat)

def u64 (value : UInt64) : Write := extend maximum (leBytes 8 value.toNat)

/-- codec.rs:149. -/
def string (value : Bytes) : Write := fun written => do
  ensure (value.length ≤ 65535) (.stringTooLong value.length 65535)
  (u16 maximum value.length >=> extend maximum value) written

/-- codec.rs:158. -/
def qid (value : Qid) : Write :=
  u8 maximum value.ty >=> u32 maximum value.version >=> u64 maximum value.path

/-- The qids of `Rwalk` (codec.rs:541-543). -/
def qids : List Qid → Write
  | [] => .ok
  | value :: rest => qid maximum value >=> qids rest

/-- `write_timestamp` (codec.rs:641). -/
def timestamp (value : Timestamp) : Write := u64 maximum value.seconds >=> u64 maximum value.nanoseconds

/-- The discriminant of a lock type (flags.rs:175). -/
def lockTypeByte : LockType → UInt8
  | .read => 0
  | .write => 1
  | .unlock => 2

/-- The discriminant of a lock status (flags.rs:201). -/
def lockStatusByte : LockStatus → UInt8
  | .success => 0
  | .blocked => 1
  | .error => 2
  | .grace => 3

/-- `write_lock` (codec.rs:646). -/
def lock (value : Lock) : Write :=
  u8 maximum (lockTypeByte value.ty) >=> u64 maximum value.start >=> u64 maximum value.length >=>
    u32 maximum value.processId >=> string maximum value.clientId

/-- `map_structure_encode_error` (codec.rs:654). -/
def structureError : StructureError → EncodeError
  | .invalidNanoseconds => .invalidValue "nanoseconds"
  | .unknownMaskBits => .invalidValue "mask bits"
  | .invalidComponentName => .invalidValue "path component"
  | .invalidXattrName => .invalidValue "xattr name"
  | .conflictingXattrFlags => .invalidValue "xattr flags"
  | .unknownLockFlags => .invalidValue "lock flags"

/-- The `match` of `encode_response` (codec.rs:513-592). -/
def body : ResponseBody → Write
  | .version msize version => u32 maximum msize >=> string maximum version
  | .auth value | .attach value | .mkdir value | .mknod value | .symlink value => qid maximum value
  | .flush | .clunk | .fsync | .setattr | .rename | .renameAt | .remove | .unlinkAt | .link
  | .xattrCreate => .ok
  | .walk values => fun written => do
    ensure (values.length ≤ 65535) (.countTooLarge "walk qids" values.length 65535)
    (u16 maximum values.length >=> qids maximum values) written
  | .lopen value ioUnit | .lcreate value ioUnit => qid maximum value >=> u32 maximum ioUnit
  | .read data | .readdir data => fun written => do
    ensure (data.length ≤ 4294967295) (.countTooLarge "response data" data.length 4294967295)
    (extend maximum (leBytes 4 data.length) >=> extend maximum data) written
  | .write count => u32 maximum count
  | .statfs value =>
    u32 maximum value.ty >=> u32 maximum value.blockSize >=> u64 maximum value.blocks >=>
      u64 maximum value.blocksFree >=> u64 maximum value.blocksAvailable >=>
      u64 maximum value.files >=> u64 maximum value.filesFree >=>
      u64 maximum value.filesystemId >=> u32 maximum value.maxNameLength
  | .getattr value => fun written => do
    mapErr structureError value.validate
    (u64 maximum value.valid.bits >=> qid maximum value.qid >=> u32 maximum value.mode >=>
      u32 maximum value.uid >=> u32 maximum value.gid >=> u64 maximum value.linkCount >=>
      u64 maximum value.device >=> u64 maximum value.size >=> u64 maximum value.blockSize >=>
      u64 maximum value.blocks >=> timestamp maximum value.accessed >=>
      timestamp maximum value.modified >=> timestamp maximum value.changed >=>
      timestamp maximum value.created >=> u64 maximum value.generation >=>
      u64 maximum value.dataVersion) written
  | .readlink target => string maximum target
  | .xattrWalk size => u64 maximum size
  | .lock status => u8 maximum (lockStatusByte status)
  | .getlock value => lock maximum value
  | .lerror errno => u32 maximum errno.code

end Write

/-- `encode_response` (codec.rs:511): header, body, then the size is patched in. -/
def encodeResponse (response : Response) (maximum : UInt32) : Except EncodeError Bytes := do
  ensure (7 ≤ maximum) (.frameTooLarge 7 maximum)
  let written ← (Write.u8 maximum response.body.messageType.toU8 >=>
    Write.u16 maximum response.tag.toNat >=> Write.body maximum response.body) [0, 0, 0, 0]
  ensure (written.length < 2 ^ 32) .arithmeticOverflow
  return leBytes 4 written.length ++ written.drop 4

/-- One record of `Rreaddir` (codec.rs:629-635). -/
def DirectoryEntry.toBytes (entry : DirectoryEntry) : Bytes :=
  [entry.qid.ty] ++ leBytes 4 entry.qid.version.toNat ++ leBytes 8 entry.qid.path.toNat ++
    leBytes 8 entry.offset.toNat ++ [entry.ty] ++ leBytes 2 entry.name.length ++ entry.name

/-- The loop of `encode_directory_entries` (codec.rs:604-637): it stops at the first record that
does not fit. -/
def encodeEntries (maximumData maximumString : Nat) (bytes : Bytes) :
    List DirectoryEntry → Except EncodeError Bytes
  | [] => .ok bytes
  | entry :: rest => do
    mapErr Write.structureError (validateComponent entry.name)
    ensure (entry.name.length ≤ maximumString) (.stringTooLong entry.name.length maximumString)
    ensure (entry.name.length ≤ 65535) (.stringTooLong entry.name.length 65535)
    if maximumData < bytes.length + (24 + entry.name.length) then return bytes
    else encodeEntries maximumData maximumString (bytes ++ entry.toBytes) rest

/-- codec.rs:598. -/
def encodeDirectoryEntries (entries : List DirectoryEntry) (maximumData maximumString : Nat) :
    Except EncodeError Bytes :=
  encodeEntries maximumData maximumString [] entries

/-! ## Framing -/

/-- The decoder of a byte stream (frame.rs:9). -/
structure FrameDecoder where
  retained : Bytes
  hardMaximum : UInt32
  maximumRetained : Nat

namespace FrameDecoder

/-- frame.rs:17. -/
def new (limits : Limits) : FrameDecoder := ⟨[], limits.maxFrameSize, limits.maxBufferedInputBytes⟩

/-- frame.rs:31. -/
def clear (decoder : FrameDecoder) : FrameDecoder := { decoder with retained := [] }

/-- `u32::try_from(value).unwrap_or(u32::MAX)`. -/
def clampU32 (value : Nat) : UInt32 := UInt32.ofNat (min value 0xffffffff)

/-- frame.rs:98. -/
def validateDeclared (decoder : FrameDecoder) (declared maximum : UInt32) :
    Except DecodeError Unit := do
  ensure (7 ≤ declared) (.frameTooSmall declared)
  ensure (declared ≤ maximum) (.frameTooLarge declared maximum)
  ensure (declared.toNat ≤ decoder.maximumRetained)
    (.frameTooLarge declared (clampU32 decoder.maximumRetained))

/-- `retain` (frame.rs:117): on failure the tail is dropped. -/
def retain (decoder : FrameDecoder) (bytes : Bytes) : Except DecodeError Unit × FrameDecoder :=
  if decoder.retained.length + bytes.length ≤ decoder.maximumRetained then
    (.ok (), { decoder with retained := decoder.retained ++ bytes })
  else
    (.error (.frameTooLarge (clampU32 (decoder.retained.length + bytes.length))
      (clampU32 decoder.maximumRetained)), decoder.clear)

/-- Completing a retained header (frame.rs:67-75): what remains of the input. -/
def pushHeader (decoder : FrameDecoder) (input : Bytes) : Except DecodeError Bytes × FrameDecoder :=
  if decoder.retained.length < 4 then
    match decoder.retain (input.take (4 - decoder.retained.length)) with
    | (.error error, decoder) => (.error error, decoder)
    | (.ok (), kept) => (.ok (input.drop (4 - decoder.retained.length)), kept)
  else (.ok input, decoder)

/-- One turn of the loop of `push` once the header is retained (frame.rs:76-92): what remains of the
input and the frame that was completed, if one was. -/
def pushBody (decoder : FrameDecoder) (input : Bytes) (maximum : UInt32) :
    Except DecodeError (Bytes × Option Bytes) × FrameDecoder :=
  let declared := declaredSize decoder.retained
  match decoder.validateDeclared declared maximum with
  | .error error => (.error error, decoder.clear)
  | .ok () =>
    let needed := declared.toNat - decoder.retained.length
    match decoder.retain (input.take needed) with
    | (.error error, decoder) => (.error error, decoder)
    | (.ok (), decoder) =>
      if decoder.retained.length = declared.toNat then
        (.ok (input.drop needed, some decoder.retained), decoder.clear)
      else (.ok (input.drop needed, none), decoder)

/-- The loop of `push` (frame.rs:52-93). Every turn takes at least one byte of the input, so the
input's length bounds the number of turns. -/
def pushLoop (maximum : UInt32) : Nat → FrameDecoder → Bytes → List Bytes →
    Except DecodeError (List Bytes) × FrameDecoder
  | 0, decoder, _, frames => (.ok frames, decoder)
  | turns + 1, decoder, input, frames =>
    if input = [] then (.ok frames, decoder)
    else if decoder.retained = [] ∧ 4 ≤ input.length then
      let declared := declaredSize input
      match decoder.validateDeclared declared maximum with
      | .error error => (.error error, decoder)
      | .ok () =>
        if declared.toNat ≤ input.length then
          pushLoop maximum turns decoder (input.drop declared.toNat)
            (frames ++ [input.take declared.toNat])
        else match decoder.retain input with
          | (.error error, decoder) => (.error error, decoder)
          | (.ok (), decoder) => (.ok frames, decoder)
    else
      match decoder.pushHeader input with
      | (.error error, decoder) => (.error error, decoder)
      | (.ok input, decoder) =>
        if decoder.retained.length < 4 then (.ok frames, decoder)
        else match decoder.pushBody input maximum with
          | (.error error, decoder) => (.error error, decoder)
          | (.ok (input, frame), decoder) =>
            pushLoop maximum turns decoder input (frames ++ frame.toList)

/-- frame.rs:44. -/
def push (decoder : FrameDecoder) (input : Bytes) (activeMaximum : UInt32) :
    Except DecodeError (List Bytes) × FrameDecoder :=
  pushLoop (min decoder.hardMaximum activeMaximum) input.length decoder input []

end FrameDecoder

end W9pt.Protocol
