import W9pt.Session.State

/-!
# Serving requests (`session/mod.rs:318-1575`)

One handler per message. All of them follow one of three patterns: an immediate reply, an operation
on behalf of a fid, or an operation that reserves a fid until it completes.
-/

namespace W9pt.Connection

open Lib Protocol Session

/-- `count.min(self.active_msize().saturating_sub(11))`: what fits one `Rread`. -/
def Session.readMaximum (s : Session) (count : UInt32) : UInt32 :=
  min count (UInt32.ofNat (s.activeMsize.toNat - 11))

/-- `u32::try_from(length).unwrap_or(u32::MAX)`. -/
def clampLength (length : Nat) : UInt32 := UInt32.ofNat (min length 0xffffffff)

/-! ## Flush -/

/-- An outstanding operation after a `Tflush` named it (mod.rs:481-483). -/
def PendingOperation.flushedBy (target : PendingOperation) (tag : Tag) : PendingOperation :=
  { target with
    responseSuppressed := true
    cancellationRequested := true
    flushWaiters := target.flushWaiters ++ [tag] }

/-- The state after a `Tflush` was attached to an outstanding operation (mod.rs:477-484). -/
def Session.joinPending (s : Session) (tag oldTag : Tag) (target : PendingOperation) : Session :=
  { s with
    accounting := { s.accounting with inFlightTags := s.accounting.inFlightTags + 1 }
    pendingByTag := s.pendingByTag.insert oldTag (target.flushedBy tag)
    flushes := s.flushes.insert tag ⟨false, []⟩ }

/-- The state after a `Tflush` was attached to another one (mod.rs:495-501). -/
def Session.joinFlush (s : Session) (tag oldTag : Tag) (target : FlushState) : Session :=
  { s with
    accounting := { s.accounting with inFlightTags := s.accounting.inFlightTags + 1 }
    flushes := (s.flushes.insert tag ⟨false, []⟩).insert oldTag
      ⟨true, target.waiters ++ [tag]⟩ }

/-- The advisory cancellation of a flushed operation, once (mod.rs:470-475). -/
def requestCancel (target : PendingOperation) : Act Unit :=
  if target.cancellationRequested then pure ()
  else queueEffect (.cancel target.operationId target.kind)

/-- mod.rs:459. -/
def handleFlush (tag oldTag : Tag) : Act Unit := fun s =>
  match s.pendingByTag[oldTag]? with
  | some target =>
    match Accounting.reserve s.accounting.inFlightTags 1 s.limits.maxInFlightTags .inFlightTags with
    | .error error => .error (.error (.limit error)) s
    | .ok _ =>
      match requestCancel target s with
      | .error error s => .error error s
      | .ok () s =>
        match s.pendingByTag[oldTag]? with
        | none =>
          .error (.panicked "flush target remains active while cancellation is queued") s
        | some target => .ok () (s.joinPending tag oldTag target)
  | none =>
    match s.flushes[oldTag]? with
    | some _ =>
      match Accounting.reserve s.accounting.inFlightTags 1 s.limits.maxInFlightTags
          .inFlightTags with
      | .error error => .error (.error (.limit error)) s
      | .ok _ =>
        match (s.flushes.insert tag ⟨false, []⟩)[oldTag]? with
        | none => .error (.panicked "nested flush target remains active") s
        | some target => .ok () (s.joinFlush tag oldTag target)
    | none => queueResponse ⟨tag, .flush⟩ s

/-! ## Open instances -/

section

variable (tag : Tag) (fid : Fid)

/-- A handler of an operation on the open instance of a plain fid
(`handle_fsync`, `handle_lock`, `handle_getlock`, mod.rs:510-572). -/
def handleOpenFid (operation : OpenHandle → FilesystemOperation) (continuation : Continuation) :
    Act Unit := do
  let some object ← objectFid tag fid | return ()
  let some handle := object.openInstance | queueStateError tag .fidNotOpen
  emitFilesystemChecked tag object.context object.capabilities (operation handle) continuation 0

/-- mod.rs:510. -/
def handleFsync (dataOnly : Bool) : Act Unit :=
  handleOpenFid tag fid (.fsync · dataOnly) .fsync

/-- mod.rs:528. -/
def handleLock (lock : LockRequest) : Act Unit :=
  handleOpenFid tag fid (.lock · lock) .lock

/-- mod.rs:551. -/
def handleGetlock (lock : Lock) : Act Unit :=
  handleOpenFid tag fid (.getlock · lock) .getlock

/-- mod.rs:656. -/
def handleReaddir (offset : UInt64) (count : UInt32) : Act Unit :=
  withObject tag fid fun object s => match object.openInstance with
    | none => queueStateError tag .fidNotOpen s
    | some handle =>
      if !object.qid.hasType Qid.directory || object.xattr.isSome then queueErrno tag .ENOTDIR s
      else emitFilesystemChecked tag object.context object.capabilities
        (.readDir handle offset (s.readMaximum count)) (.readdir (s.readMaximum count)) 0 s

end

/-! ## Names in a directory -/

section

variable (tag : Tag) (directory : Fid)

/-- A handler of an operation in a directory fid
(`handle_mkdir`, `handle_mknod`, `handle_symlink`, `handle_unlink_at`). -/
def handleInDirectory (operation : ObjectHandle → FilesystemOperation) (continuation : Continuation) :
    Act Unit := do
  let some parent ← directoryFid tag directory | return ()
  emitFilesystemChecked tag parent.context parent.capabilities (operation parent.object)
    continuation 0

/-- mod.rs:692. -/
def handleMkdir (name : Bytes) (mode gid : UInt32) : Act Unit :=
  handleInDirectory tag directory (.mkdir · name mode gid) .mkdir

/-- mod.rs:720. -/
def handleMknod (name : Bytes) (mode major minor gid : UInt32) :
    Act Unit :=
  handleInDirectory tag directory (.mknod · name mode major minor gid) .mknod

/-- mod.rs:751. -/
def handleSymlink (name target : Bytes) (gid : UInt32) : Act Unit :=
  handleInDirectory tag directory (.symlink · name target gid) .symlink

/-- mod.rs:885. -/
def handleUnlinkAt (name : Bytes) (flags : UnlinkFlags) : Act Unit :=
  handleInDirectory tag directory (.unlinkAt · name flags) (.noState .unlinkAt)

end

/-- An operation on two fids, which must belong to one export; it runs with the first one's
context (`handle_link`, `handle_rename`, `handle_rename_at`). -/
def handlePair (tag : Tag) (first second : Act (Option ObjectFid))
    (operation : ObjectHandle → ObjectHandle → FilesystemOperation) (response : ResponseBody) :
    Act Unit := do
  let some first ← first | return ()
  let some second ← second | return ()
  if first.context ≠ second.context then queueErrno tag .EXDEV
  else
    emitFilesystemChecked tag first.context first.capabilities
      (operation first.object second.object) (.noState response) 0

/-- mod.rs:778. -/
def handleLink (tag : Tag) (directory target : Fid) (name : Bytes) : Act Unit :=
  handlePair tag (directoryFid tag directory) (objectFid tag target) (.link · · name) .link

/-- mod.rs:813. -/
def handleRename (tag : Tag) (fid directory : Fid) (name : Bytes) : Act Unit :=
  handlePair tag (objectFid tag fid) (directoryFid tag directory) (.rename · · name) .rename

/-- mod.rs:848. -/
def handleRenameAt (tag : Tag) (oldDirectory : Fid) (oldName : Bytes) (newDirectory : Fid)
    (newName : Bytes) : Act Unit :=
  handlePair tag (directoryFid tag oldDirectory) (directoryFid tag newDirectory)
    (.renameAt · oldName · newName) .renameAt

/-! ## Attributes -/

section

variable (tag : Tag) (fid : Fid)

/-- A handler of an operation on any object fid
(`handle_statfs`, `handle_getattr`, `handle_setattr`). -/
def handleObject (operation : ObjectHandle → FilesystemOperation) (continuation : Continuation) :
    Act Unit :=
  withObject tag fid fun object => emitFilesystemChecked tag object.context object.capabilities
    (operation object.object) continuation 0

/-- mod.rs:910. -/
def handleStatfs : Act Unit := handleObject tag fid .statfs .statfs

/-- mod.rs:928. -/
def handleGetattr (mask : GetattrMask) : Act Unit :=
  handleObject tag fid (.getattr · mask) .getattr

/-- mod.rs:952. -/
def handleSetattr (attributes : SetAttributes) : Act Unit :=
  handleObject tag fid (.setattr · attributes) .setattr

/-- mod.rs:976; unlike the others it refuses xattr fids. -/
def handleReadlink : Act Unit :=
  withObject tag fid fun object =>
    if object.xattr.isSome then queueStateError tag .wrongFidKind
    else emitFilesystemChecked tag object.context object.capabilities (.readlink object.object)
      .readlink 0

end

/-! ## Operations that reserve their fid -/

section

variable (tag : Tag) (fid : Fid)

/-- `handle_open` and `handle_create` refuse a fid that is already in use (mod.rs:1007-1009). -/
def handleUnopened (operation : ObjectHandle → FilesystemOperation)
    (continuation : ObjectFid → Continuation) : Act Unit :=
  withObject tag fid fun object =>
    if object.openInstance.isSome || object.xattr.isSome then queueStateError tag .fidAlreadyOpen
    else emitReserving tag fid object (operation object.object) (continuation object) 0

/-- mod.rs:997. -/
def handleOpen (flags : OpenFlags) : Act Unit :=
  handleUnopened tag fid (.open · flags) (.open fid)

/-- mod.rs:1035. -/
def handleCreate (name : Bytes) (flags : OpenFlags) (mode gid : UInt32) :
    Act Unit :=
  handleUnopened tag fid (.create · name flags mode gid) (.create fid)

/-- mod.rs:614. -/
def handleXattrCreate (name : Bytes) (size : UInt64) (flags : XattrFlags) :
    Act Unit := do
  let some original ← objectFid tag fid | return ()
  if original.openInstance.isSome then queueStateError tag .fidAlreadyOpen
  else
    emitReserving tag fid original (.xattrCreate original.object name size flags)
      (.xattrCreate fid original size) 0

/-- mod.rs:1306: a fully written xattr is committed, an incomplete one aborted with `EINVAL`, any
other object released. -/
def handleObjectClunk : Act Unit :=
  withObject tag fid fun object => match object.xattr with
    | some ⟨handle, .write expectedSize written⟩ =>
      if written = expectedSize then
        emitReserving tag fid object (.xattrCommit handle expectedSize) (.xattrCommitFid fid) 0
      else
        emitReserving tag fid object (.release object.object object.openInstance (some handle))
          (.xattrAbortFid fid .EINVAL) 0
    | _ => emitReserving tag fid object
        (.release object.object object.openInstance (object.xattr.map (·.handle)))
        (.releaseFid fid) 0

/-- mod.rs:1378. -/
def handleRemove : Act Unit :=
  withObject tag fid fun object =>
    if object.xattr.isSome then queueStateError tag .wrongFidKind
    else emitReserving tag fid object
      (.remove object.object object.openInstance (object.xattr.map (·.handle))) (.removeFid fid) 0

end

/-! ## Data -/

/-- mod.rs:1119. -/
def handleXattrRead (tag : Tag) (object : ObjectFid) (xattr : XattrState) (offset : UInt64)
    (count : UInt32) : Act Unit := fun s =>
  match xattr.mode with
  | .write .. => queueStateError tag .wrongFidKind s
  | .read size =>
    if size ≤ offset then queueResponse ⟨tag, .read []⟩ s
    else
      let maximum := min (s.readMaximum count) (clampLength (size - offset).toNat)
      emitFilesystemChecked tag object.context object.capabilities
        (.xattrRead xattr.handle offset maximum) (.xattrRead maximum) 0 s

/-- mod.rs:1079. -/
def handleFileRead (tag : Tag) (fid : Fid) (offset : UInt64) (count : UInt32) : Act Unit :=
  withObject tag fid fun object => match object.xattr with
    | some xattr => handleXattrRead tag object xattr offset count
    | none => match object.openInstance with
      | none => queueStateError tag .fidNotOpen
      | some handle => fun s =>
        let maximum := s.readMaximum count
        if (checkedAdd offset maximum.toUInt64).isNone then queueErrno tag .EOVERFLOW s
        else emitFilesystemChecked tag object.context object.capabilities
          (.read handle offset maximum) (.read maximum) 0 s

/-- mod.rs:1154. -/
def handleXattrWrite (tag : Tag) (fid : Fid) (object : ObjectFid) (xattr : XattrState)
    (offset : UInt64) (data : Bytes) : Act Unit :=
  match xattr.mode with
  | .read _ => queueStateError tag .wrongFidKind
  | .write expectedSize written =>
    match checkedAdd offset (UInt64.ofNat data.length) with
    | none => queueErrno tag .EOVERFLOW
    | some finish =>
      if offset ≠ written ∨ expectedSize < finish then queueStateError tag .invalidRequest
      else emitReserving tag fid object (.xattrWrite xattr.handle offset data)
        (.xattrWrite fid object (clampLength data.length)) data.length

/-- mod.rs:1207. -/
def handleFileWrite (tag : Tag) (fid : Fid) (offset : UInt64) (data : Bytes) : Act Unit :=
  withObject tag fid fun object => match object.xattr with
    | some xattr => handleXattrWrite tag fid object xattr offset data
    | none => match object.openInstance with
      | none => queueStateError tag .fidNotOpen
      | some handle =>
        if (checkedAdd offset (UInt64.ofNat data.length)).isNone then queueErrno tag .EOVERFLOW
        else emitFilesystemChecked tag object.context object.capabilities
          (.write handle offset data) (.write (clampLength data.length)) data.length

/-! ## Operations that reserve a new fid -/

section

variable (tag : Tag)

/-- Claim a fid, then emit; if that fails the claim is undone (as in mod.rs:1419-1434). -/
def claiming (fid : Fid) (emit : Act Unit) : Act Unit := do
  if ← claimFid tag fid then undoing emit (·.retireFid fid)

def walkRequest (sourceFid newFid : Fid) (source : ObjectFid) (names : List Bytes) :
    Act Unit :=
  emitFilesystem tag ⟨source.context, .walk source.object names⟩
    (.walk sourceFid newFid source names.length) 0

/-- The walk itself (mod.rs:1279-1302): within the fid, or to a new one. -/
def emitWalk (sourceFid newFid : Fid) (source : ObjectFid) (names : List Bytes) :
    Act Unit := fun s =>
  if newFid = sourceFid then
    undoing (walkRequest tag sourceFid newFid source names)
      (·.rollbackWalk sourceFid newFid source) (s.setFid sourceFid .pending)
  else (do
    if ← claimFid tag newFid then
      undoing (walkRequest tag sourceFid newFid source names)
        (·.rollbackWalk sourceFid newFid source) : Act Unit) s

/-- A walk of no names clones the fid at once (mod.rs:1262-1273). -/
def cloneFid (sourceFid newFid : Fid) (source : ObjectFid) : Act Unit := do
  if newFid ≠ sourceFid then
    if ← claimFid tag newFid then
      modify (·.setFid newFid (.object source))
      queueResponse ⟨tag, .walk []⟩
  else queueResponse ⟨tag, .walk []⟩

/-- mod.rs:1244. -/
def handleWalk (sourceFid newFid : Fid) (names : List Bytes) : Act Unit :=
  withObject tag sourceFid fun source =>
    if source.openInstance.isSome || source.xattr.isSome then queueStateError tag .fidAlreadyOpen
    else if names = [] then cloneFid tag sourceFid newFid source
    else match source.capabilities.requireFor (.walk source.object names) with
      | .error _ => queueStateError tag .unsupported
      | .ok () => emitWalk tag sourceFid newFid source names

/-- mod.rs:574. -/
def handleXattrWalk (fid newFid : Fid) (name : Bytes) : Act Unit := do
  if fid = newFid then queueStateError tag .invalidRequest
  else
    let some source ← objectFid tag fid | return ()
    match source.capabilities.requireFor (.xattrWalk source.object name) with
    | .error _ => queueStateError tag .unsupported
    | .ok () =>
      claiming tag newFid
        (emitFilesystem tag ⟨source.context, .xattrWalk source.object name⟩
          (.xattrWalk newFid source) 0)

/-- mod.rs:1409. -/
def handleAuth (afid : Fid) (uname aname : Bytes) (nUname : UInt32) : Act Unit := fun s =>
  if afid = nofid then queueStateError tag .invalidRequest s
  else claiming tag afid
    (emitPolicy tag (.startAuth afid (.fromWire uname nUname) aname s.context.transportPrincipal)
      (.authStart afid) 0) s

/-- The claim and the request of `handle_attach` (mod.rs:1459-1472). -/
def emitAttach (fid : Fid) (auth : Option AuthHandle) (uname aname : Bytes) (nUname : UInt32) :
    Act Unit := fun s =>
  claiming tag fid
    (emitPolicy tag (.attach fid auth (.fromWire uname nUname) aname s.context.transportPrincipal)
      (.attach fid) 0) s

/-- mod.rs:1437. -/
def handleAttach (fid afid : Fid) (uname aname : Bytes) (nUname : UInt32) : Act Unit :=
    fun s =>
  if fid = nofid then queueStateError tag .invalidRequest s
  else if afid = nofid then emitAttach tag fid none uname aname nUname s
  else match s.fids[afid]? with
    | some (.auth _ handle) => emitAttach tag fid (some handle) uname aname nUname s
    | some _ => queueStateError tag .wrongFidKind s
    | none => queueStateError tag .unknownFid s

end

/-! ## Authentication fids -/

/-- The `match self.fids.get(&fid)` of the authentication handlers. -/
def withAuth (tag : Tag) (fid : Fid) (serve : Qid → AuthHandle → Act Unit) : Act Unit := fun s =>
  match s.fids[fid]? with
  | some (.auth qid handle) => serve qid handle s
  | _ => queueStateError tag .unknownFid s

/-- mod.rs:1475. -/
def handleAuthRead (tag : Tag) (fid : Fid) (offset : UInt64) (count : UInt32) : Act Unit :=
  withAuth tag fid fun _ handle s => emitPolicy tag (.readAuth handle offset (s.readMaximum count))
    (.authRead (s.readMaximum count)) 0 s

/-- mod.rs:1499. -/
def handleAuthWrite (tag : Tag) (fid : Fid) (offset : UInt64) (data : Bytes) : Act Unit :=
  withAuth tag fid fun _ handle => emitPolicy tag (.writeAuth handle offset data)
    (.authWrite (clampLength data.length)) data.length

/-- mod.rs:1524. -/
def handleAuthClunk (tag : Tag) (fid : Fid) : Act Unit :=
  withAuth tag fid fun qid handle s =>
    undoing (emitPolicy tag (.clunkAuth handle) (.authClunk fid) 0)
      (·.setFid fid (.auth qid handle)) (s.setFid fid .pending)

/-! ## Version -/

/-- `VERSION_9P2000_L`, "9P2000.L" (protocol/mod.rs:25). -/
def dialect : Bytes := [0x39, 0x50, 0x32, 0x30, 0x30, 0x30, 0x2e, 0x4c]

def unknownDialect : Bytes := [0x75, 0x6e, 0x6b, 0x6e, 0x6f, 0x77, 0x6e]

/-- mod.rs:1542. -/
def handleVersion (order : HashOrder) (tag : Tag) (requestedMsize : UInt32) (version : Bytes) :
    Act Unit := fun s =>
  if tag ≠ notag then queueStateError tag .invalidTag s
  else if requestedMsize < 21 then
    .ok () (s.failProtocol order "Tversion msize cannot contain Rversion")
  else
    let effective := min requestedMsize s.limits.maxFrameSize
    let accepted := version = dialect
    queueResponse
      ⟨tag, .version effective (if accepted then dialect else unknownDialect)⟩
      { s.resetForVersion order with negotiatedMsize := if accepted then some effective else none }

/-! ## Dispatch -/

/-- Whether a fid is an authentication stream, which sends reads, writes and clunks to policy. -/
def Session.isAuth (s : Session) (fid : Fid) : Bool :=
  match s.fids[fid]? with
  | some (.auth ..) => true
  | _ => false

/-- The requests of a negotiated session other than `Tversion` and `Tflush` (mod.rs:341-455). -/
def serve (tag : Tag) : RequestBody → Act Unit
  | .version .. | .flush _ => pure ()
  | .auth afid uname aname nUname => handleAuth tag afid uname aname nUname
  | .attach fid afid uname aname nUname => handleAttach tag fid afid uname aname nUname
  | .read fid offset count => fun s =>
    if s.isAuth fid then handleAuthRead tag fid offset count s
    else handleFileRead tag fid offset count s
  | .write fid offset data => fun s =>
    if s.isAuth fid then handleAuthWrite tag fid offset data s
    else handleFileWrite tag fid offset data s
  | .clunk fid => fun s =>
    if s.isAuth fid then handleAuthClunk tag fid s else handleObjectClunk tag fid s
  | .lopen fid flags => handleOpen tag fid flags
  | .lcreate fid name flags mode gid => handleCreate tag fid name flags mode gid
  | .statfs fid => handleStatfs tag fid
  | .getattr fid mask => handleGetattr tag fid mask
  | .setattr fid attributes => handleSetattr tag fid attributes
  | .readlink fid => handleReadlink tag fid
  | .readdir fid offset count => handleReaddir tag fid offset count
  | .mkdir directory name mode gid => handleMkdir tag directory name mode gid
  | .mknod directory name mode major minor gid =>
    handleMknod tag directory name mode major minor gid
  | .symlink directory name target gid => handleSymlink tag directory name target gid
  | .link directory target name => handleLink tag directory target name
  | .rename fid directory name => handleRename tag fid directory name
  | .renameAt oldDirectory oldName newDirectory newName =>
    handleRenameAt tag oldDirectory oldName newDirectory newName
  | .unlinkAt directory name flags => handleUnlinkAt tag directory name flags
  | .xattrWalk fid newFid name => handleXattrWalk tag fid newFid name
  | .xattrCreate fid name size flags => handleXattrCreate tag fid name size flags
  | .fsync fid dataOnly => handleFsync tag fid dataOnly
  | .lock fid request => handleLock tag fid request
  | .getlock fid query => handleGetlock tag fid query
  | .walk fid newFid names => handleWalk tag fid newFid names
  | .remove fid => handleRemove tag fid

/-- mod.rs:318. -/
def dispatch (order : HashOrder) (request : Request) : Act Unit := fun s =>
  match request.body with
  | .version msize version => handleVersion order request.tag msize version s
  | body =>
    if request.tag = notag then .ok () (s.failProtocol order "NOTAG is reserved for Tversion")
    else if request.tag ∈ s.pendingByTag ∨ request.tag ∈ s.flushes then
      queueStateError request.tag .duplicateTag s
    else if s.negotiatedMsize.isNone then queueStateError request.tag .notNegotiated s
    else match body with
      | .flush oldTag => handleFlush request.tag oldTag s
      | body => serve request.tag body s

end W9pt.Connection
