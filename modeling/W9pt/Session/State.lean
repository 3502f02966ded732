import W9pt.Protocol.Wire

/-!
# State of a connection (`session/mod.rs`, `session/fid.rs`, `session/pending.rs`, `effect.rs`)

One `Session` belongs to one transport connection. It performs no I/O: it queues effects for its
host and is fed bytes and completions.

A Rust method `&mut self → Result` keeps the changes it made before it failed, so an `Act` returns
the state in both cases. A failing `expect` is `Abort.panicked`.
-/

namespace W9pt.Connection

open Lib Protocol

/-! ## Effects and completions -/

/-- effect.rs:19. -/
structure AuthHandle where
  get : BitVec 128
deriving DecidableEq

/-- effect.rs:72. -/
inductive CancelKind where
  | filesystem | policy

/-- Discriminant of a policy result (effect.rs:243). -/
inductive PolicyResultKind where
  | authStarted | authRead | authWritten | authClunked | attached
deriving DecidableEq

/-- effect.rs:144. -/
inductive PolicyRequest where
  | startAuth (afid : Fid) (identity : UserIdentity) (exportName : Bytes)
      (transportPrincipal : Option Bytes)
  | readAuth (handle : AuthHandle) (offset : UInt64) (count : UInt32)
  | writeAuth (handle : AuthHandle) (offset : UInt64) (data : Bytes)
  | clunkAuth (handle : AuthHandle)
  | attach (fid : Fid) (auth : Option AuthHandle) (identity : UserIdentity) (exportName : Bytes)
      (transportPrincipal : Option Bytes)

/-- effect.rs:178. -/
def PolicyRequest.expectedResult : PolicyRequest → PolicyResultKind
  | startAuth .. => .authStarted
  | readAuth .. => .authRead
  | writeAuth .. => .authWritten
  | clunkAuth _ => .authClunked
  | attach .. => .attached

/-- effect.rs:188. -/
def PolicyRequest.retainedBytes : PolicyRequest → Nat
  | startAuth _ identity exportName principal | attach _ _ identity exportName principal =>
    identity.name.length + exportName.length + (principal.map List.length).getD 0
  | writeAuth _ _ data => data.length
  | readAuth .. | clunkAuth _ => 0

/-- effect.rs:215. -/
inductive PolicyResult where
  | authStarted (qid : Qid) (handle : AuthHandle)
  | authRead (data : Bytes)
  | authWritten (count : UInt32)
  | authClunked
  | attached (result : AttachResult)

/-- effect.rs:230. -/
def PolicyResult.kind : PolicyResult → PolicyResultKind
  | authStarted .. => .authStarted
  | authRead _ => .authRead
  | authWritten _ => .authWritten
  | authClunked => .authClunked
  | attached _ => .attached

/-- Work queued for the host (effect.rs:36). -/
inductive Effect where
  | sendFrame (bytes : Bytes)
  | filesystem (operationId : OperationId) (request : FilesystemRequest)
  | policy (operationId : OperationId) (request : PolicyRequest)
  | cancel (operationId : OperationId) (kind : CancelKind)
  | closeSession (reason : CloseReason)

/-- effect.rs:60. -/
def Effect.retainedBytes : Effect → Nat
  | sendFrame bytes => bytes.length
  | filesystem _ request => request.retainedBytes
  | policy _ request => request.retainedBytes
  | cancel .. | closeSession _ => 0

/-- Terminal event of one operation (effect.rs:82); a policy error is its errno. -/
inductive Completion where
  | filesystem (operationId : OperationId) (result : Except FilesystemError FilesystemResult)
  | policy (operationId : OperationId) (result : Except LinuxErrno PolicyResult)
  | cancelled (operationId : OperationId) (kind : CancelKind)

/-- effect.rs:102. -/
def Completion.operationId : Completion → OperationId
  | filesystem operationId _ | policy operationId _ | cancelled operationId _ => operationId

/-! ## Fids -/

/-- session/fid.rs:36. -/
inductive XattrMode where
  | read (size : UInt64)
  | write (expectedSize written : UInt64)

/-- session/fid.rs:30. -/
structure XattrState where
  handle : XattrHandle
  mode : XattrMode

/-- session/fid.rs:20. -/
structure ObjectFid where
  object : ObjectHandle
  qid : Qid
  context : RequestContext
  capabilities : CapabilitySet
  openInstance : Option OpenHandle
  xattr : Option XattrState

/-- session/fid.rs:10. -/
inductive FidState where
  | pending
  | auth (qid : Qid) (handle : AuthHandle)
  | object (fid : ObjectFid)

/-! ## Outstanding requests -/

/-- session/pending.rs:12. -/
inductive ExpectedCompletion where
  | filesystem (kind : FilesystemResultKind)
  | policy (kind : PolicyResultKind)

/-- The completions an operation may end with (session/pending.rs:21-50). -/
def ExpectedCompletion.accepts : ExpectedCompletion → Completion → Bool
  | .filesystem expected, .filesystem _ (.ok result) => expected == result.kind
  | .filesystem _, .filesystem _ (.error _) => true
  | .filesystem _, .cancelled _ .filesystem => true
  | .policy _, .policy _ (.error _) => true
  | .policy _, .cancelled _ .policy => true
  | .policy expected, .policy _ (.ok result) => expected == result.kind
  | _, _ => false

/-- session/pending.rs:62. -/
def ExpectedCompletion.name : ExpectedCompletion → String
  | .filesystem _ => "matching filesystem result or error"
  | .policy _ => "matching policy result or error"

/-- `completion_kind_name` (session/pending.rs:70). -/
def Completion.kindName : Completion → String
  | .filesystem .. => "filesystem completion"
  | .policy .. => "policy completion"
  | .cancelled _ .filesystem => "filesystem cancellation"
  | .cancelled _ .policy => "policy cancellation"

/-- session/pending.rs:18. -/
def ExpectedCompletion.validate (expected : ExpectedCompletion) (completion : Completion) :
    Except CompletionError Unit :=
  ensure (expected.accepts completion)
    (.wrongKind completion.operationId expected.name completion.kindName)

/-- What finishing an operation does (session/pending.rs:86). -/
inductive Continuation where
  | noState (response : ResponseBody)
  | authStart (fid : Fid)
  | attach (fid : Fid)
  | authRead (maximum : UInt32)
  | authWrite (requested : UInt32)
  | authClunk (fid : Fid)
  | walk (sourceFid newFid : Fid) (source : ObjectFid) (requested : Nat)
  | releaseFid (fid : Fid)
  | removeFid (fid : Fid)
  | open (fid : Fid) (original : ObjectFid)
  | create (fid : Fid) (original : ObjectFid)
  | read (maximum : UInt32)
  | write (requested : UInt32)
  | statfs
  | getattr
  | setattr
  | readlink
  | readdir (maximum : UInt32)
  | mkdir
  | mknod
  | symlink
  | xattrWalk (newFid : Fid) (source : ObjectFid)
  | xattrCreate (fid : Fid) (original : ObjectFid) (expectedSize : UInt64)
  | xattrRead (maximum : UInt32)
  | xattrWrite (fid : Fid) (original : ObjectFid) (requested : UInt32)
  | xattrCommitFid (fid : Fid)
  | xattrAbortFid (fid : Fid) (errno : LinuxErrno)
  | fsync
  | lock
  | getlock

/-- session/pending.rs:169. -/
structure PendingOperation where
  operationId : OperationId
  expected : ExpectedCompletion
  kind : CancelKind
  continuation : Continuation
  responseSuppressed : Bool
  cancellationRequested : Bool
  flushWaiters : List Tag
  writeBytes : Nat

/-- session/pending.rs:181. -/
structure FlushState where
  responseSuppressed : Bool
  waiters : List Tag

/-- session/mod.rs:33. -/
inductive CleanupAction where
  | cancel (operationId : OperationId) (kind : CancelKind)
  | policy (request : PolicyRequest)
  | filesystem (request : FilesystemRequest)

/-! ## The session -/

/-- config.rs:27. -/
structure SessionContext where
  sessionId : SessionId
  transportPrincipal : Option Bytes

/-- session/mod.rs:55. `operationIds` is the `next` of the allocator (effect.rs:272). -/
structure Session where
  limits : Limits
  context : SessionContext
  decoder : FrameDecoder
  negotiatedMsize : Option UInt32
  effects : List Effect
  accounting : Accounting
  operationIds : Option OperationId
  pendingByTag : Std.ExtTreeMap Tag PendingOperation
  flushes : Std.ExtTreeMap Tag FlushState
  tagByOperation : Std.ExtTreeMap OperationId Tag
  abandonedOperations : Std.ExtTreeMap OperationId ExpectedCompletion
  lastIssuedOperationId : OperationId
  fids : Std.ExtTreeMap Fid FidState
  cleanup : List CleanupAction
  cleanupStarted : Bool
  terminalReason : Option CloseReason
  terminalEffectDelivered : Bool

/-- The order in which the hash maps are iterated, which `HashMap` leaves open. -/
structure HashOrder where
  pending : Std.ExtTreeMap Tag PendingOperation → List (Tag × PendingOperation)
  pending_perm : ∀ map, (pending map).Perm map.toList
  fids : Std.ExtTreeMap Fid FidState → List (Fid × FidState)
  fids_perm : ∀ map, (fids map).Perm map.toList

/-- Iteration in key order. -/
def HashOrder.sorted : HashOrder := ⟨_, fun _ => .refl _, _, fun _ => .refl _⟩

/-- How a method stops early: it returns `Err`, or an `expect` fires. -/
inductive Abort (ε : Type) where
  | error (error : ε)
  | panicked (message : String)

/-- A `&mut self` method that returns `Result<_, SessionError>`. -/
abbrev Act := EStateM (Abort SessionError) Session

namespace Session

/-- The fields of a new session (mod.rs:83-104). -/
def initial (limits : Limits) (context : SessionContext) : Session where
  limits := limits
  context := context
  decoder := .new limits
  negotiatedMsize := none
  effects := []
  accounting := ⟨0, 0, 0, 0, 0⟩
  operationIds := some 1
  pendingByTag := ∅
  flushes := ∅
  tagByOperation := ∅
  abandonedOperations := ∅
  lastIssuedOperationId := 0
  fids := ∅
  cleanup := []
  cleanupStarted := false
  terminalReason := none
  terminalEffectDelivered := false

/-- mod.rs:81. -/
def new (limits : Limits) (context : SessionContext) : Except SessionError Session := do
  mapErr .invalidConfig limits.validate
  return initial limits context

/-- mod.rs:2241. -/
def activeMsize (s : Session) : UInt32 := s.negotiatedMsize.getD s.limits.maxFrameSize

/-! ## Cleanup -/

/-- What releases a drained fid (mod.rs:1712-1728). -/
def cleanupOf : FidState → Option CleanupAction
  | .auth _ handle => some (.policy (.clunkAuth handle))
  | .object fid => some (.filesystem
      ⟨fid.context, .release fid.object fid.openInstance (fid.xattr.map (·.handle))⟩)
  | .pending => none

/-- One turn of the loop of `drain_fids_to_cleanup`. -/
def drainFid (s : Session) (state : FidState) : Session :=
  { s with
    accounting := { s.accounting with fids := Accounting.release s.accounting.fids 1 }
    cleanup := s.cleanup ++ (cleanupOf state).toList }

/-- mod.rs:1708. -/
def drainFidsToCleanup (order : HashOrder) (s : Session) : Session :=
  (order.fids s.fids).foldl (fun s entry => s.drainFid entry.2) { s with fids := ∅ }

/-- mod.rs:1686. -/
def startCleanup (order : HashOrder) (s : Session) : Session :=
  if s.cleanupStarted then s
  else drainFidsToCleanup order { s with
    cleanupStarted := true
    decoder := s.decoder.clear
    pendingByTag := s.pendingByTag.map fun _ pending =>
      { pending with responseSuppressed := true, cancellationRequested := true }
    cleanup := s.cleanup ++ (order.pending s.pendingByTag).filterMap fun entry =>
      if entry.2.cancellationRequested then none
      else some (.cancel entry.2.operationId entry.2.kind)
    flushes := s.flushes.map fun _ flush => { flush with responseSuppressed := true } }

/-- mod.rs:2256. -/
def failDecode (order : HashOrder) (error : DecodeError) (s : Session) : Session :=
  startCleanup order { s with
    decoder := s.decoder.clear
    terminalReason := some (.malformedInput error) }

/-- mod.rs:2262. -/
def failProtocol (order : HashOrder) (reason : String) (s : Session) : Session :=
  startCleanup order { s with
    decoder := s.decoder.clear
    terminalReason := some (.protocolViolation reason) }

/-- One turn of the loop of `reset_for_version` (mod.rs:1584-1597). -/
def abandon (s : Session) (request : PendingOperation) : Session :=
  { s with
    accounting := { s.accounting with
      inFlightTags := Accounting.release s.accounting.inFlightTags 1
      pendingWriteBytes := Accounting.release s.accounting.pendingWriteBytes request.writeBytes }
    abandonedOperations := s.abandonedOperations.insert request.operationId request.expected
    cleanup := s.cleanup ++ [.cancel request.operationId request.kind] }

/-- mod.rs:1577. -/
def resetForVersion (order : HashOrder) (s : Session) : Session :=
  drainFidsToCleanup order <|
    (order.pending s.pendingByTag).foldl (fun s entry => s.abandon entry.2) { s with
      negotiatedMsize := none
      decoder := s.decoder.clear
      flushes := ∅
      accounting := { s.accounting with
        inFlightTags := Accounting.release s.accounting.inFlightTags s.flushes.size }
      pendingByTag := ∅
      tagByOperation := ∅ }

end Session

/-! ## Queueing

Each of these either refuses without a trace or performs one update; the updates carry names of
their own, in which the later specifications are stated. -/

namespace Session

/-- The state after `queue_effect` accepted an effect. -/
def pushEffect (s : Session) (effect : Effect) : Session :=
  { s with
    effects := s.effects ++ [effect]
    accounting := { s.accounting with
      queuedEffects := s.accounting.queuedEffects + 1
      queuedEffectBytes := s.accounting.queuedEffectBytes + effect.retainedBytes } }

/-- The state after the allocator handed out `id` (effect.rs:281). -/
def issue (s : Session) (id : OperationId) : Session :=
  { s with operationIds := checkedAdd id 1, lastIssuedOperationId := id }

/-- The state after an operation became outstanding under a tag. -/
def track (s : Session) (tag : Tag) (pending : PendingOperation) : Session :=
  { s with
    accounting := { s.accounting with
      inFlightTags := s.accounting.inFlightTags + 1
      pendingWriteBytes := s.accounting.pendingWriteBytes + pending.writeBytes }
    pendingByTag := s.pendingByTag.insert tag pending
    tagByOperation := s.tagByOperation.insert pending.operationId tag }

/-- `fids.insert`. -/
def setFid (s : Session) (fid : Fid) (state : FidState) : Session :=
  { s with fids := s.fids.insert fid state }

def claim (s : Session) (fid : Fid) : Session :=
  { s with
    accounting := { s.accounting with fids := s.accounting.fids + 1 }
    fids := s.fids.insert fid .pending }

/-- mod.rs:1680. -/
def retireFid (s : Session) (fid : Fid) : Session :=
  if fid ∈ s.fids then
    { s with
      accounting := { s.accounting with fids := Accounting.release s.accounting.fids 1 }
      fids := s.fids.erase fid }
  else s

end Session

open Session

/-- `queue_effect` (mod.rs:1617). A refused byte reservation releases the slot again. -/
def queueEffect (effect : Effect) : Act Unit := fun s =>
  match Accounting.reserve s.accounting.queuedEffects 1 s.limits.maxQueuedEffects .queuedEffects with
  | .error error => .error (.error (.limit error)) s
  | .ok _ =>
    match Accounting.reserve s.accounting.queuedEffectBytes effect.retainedBytes
        s.limits.maxQueuedEffectBytes .queuedEffectBytes with
    | .error error => .error (.error (.limit error)) s
    | .ok _ => .ok () (s.pushEffect effect)

/-- mod.rs:1612. -/
def queueResponse (response : Response) : Act Unit := fun s =>
  match encodeResponse response s.activeMsize with
  | .error error => .error (.error (.encode error)) s
  | .ok bytes => queueEffect (.sendFrame bytes) s

def queueErrno (tag : Tag) (errno : LinuxErrno) : Act Unit := queueResponse ⟨tag, .lerror errno⟩

/-- mod.rs:1601. -/
def queueStateError (tag : Tag) (error : SessionStateError) : Act Unit := queueErrno tag error.errno

/-- `object_fid` (mod.rs:1637): a fid of a filesystem object, or an error reply. -/
def objectFid (tag : Tag) (fid : Fid) : Act (Option ObjectFid) := fun s =>
  match s.fids[fid]? with
  | some (.object object) =>
    if object.xattr.isNone then .ok (some object) s
    else (do queueStateError tag .wrongFidKind; return none : Act (Option ObjectFid)) s
  | some _ => (do queueStateError tag .wrongFidKind; return none : Act (Option ObjectFid)) s
  | none => (do queueStateError tag .unknownFid; return none : Act (Option ObjectFid)) s

/-- mod.rs:1651. -/
def directoryFid (tag : Tag) (fid : Fid) : Act (Option ObjectFid) := do
  let some object ← objectFid tag fid | return none
  if object.qid.hasType Qid.directory then return some object
  else
    queueErrno tag .ENOTDIR
    return none

/-- The `match self.fids.get(&fid)` most handlers start with: any object fid, also of an xattr. -/
def withObject (tag : Tag) (fid : Fid) (serve : ObjectFid → Act Unit) : Act Unit := fun s =>
  match s.fids[fid]? with
  | some (.object object) => serve object s
  | some _ => queueStateError tag .wrongFidKind s
  | none => queueStateError tag .unknownFid s

/-- mod.rs:1665. -/
def claimFid (tag : Tag) (fid : Fid) : Act Bool := fun s =>
  if fid ∈ s.fids then (do queueStateError tag .duplicateFid; return false : Act Bool) s
  else match Accounting.reserve s.accounting.fids 1 s.limits.maxFids .fids with
    | .error error => .error (.error (.limit error)) s
    | .ok _ => .ok true (s.claim fid)

/-- `if let Err(error) = action { undo; return Err(error) }`. -/
def undoing (action : Act Unit) (undo : Session → Session) : Act Unit := fun s =>
  match action s with
  | .ok () s => .ok () s
  | .error error s => .error error (undo s)

/-! ## Emitting operations -/

/-- `emit_operation` (mod.rs:1796). What was reserved is released when a later check fails; an
identifier that was allocated stays burned. -/
def emitOperation (tag : Tag) (expected : ExpectedCompletion) (kind : CancelKind)
    (continuation : Continuation) (writeBytes : Nat) (makeEffect : OperationId → Effect) :
    Act Unit := fun s =>
  if tag ∈ s.pendingByTag then queueStateError tag .duplicateTag s
  else match Accounting.reserve s.accounting.inFlightTags 1 s.limits.maxInFlightTags
      .inFlightTags with
    | .error error => .error (.error (.limit error)) s
    | .ok _ =>
      match Accounting.reserve s.accounting.pendingWriteBytes writeBytes
          s.limits.maxPendingWriteBytes .pendingWriteBytes with
      | .error error => .error (.error (.limit error)) s
      | .ok _ =>
        match s.operationIds with
        | none => .error (.error .operationIdExhausted) s
        | some id =>
          match queueEffect (makeEffect id) (s.issue id) with
          | .error error s => .error error s
          | .ok () s => .ok () (s.track tag {
              operationId := id
              expected
              kind
              continuation
              responseSuppressed := false
              cancellationRequested := false
              flushWaiters := []
              writeBytes })

/-- mod.rs:1733. -/
def emitFilesystem (tag : Tag) (request : FilesystemRequest) (continuation : Continuation)
    (writeBytes : Nat) : Act Unit :=
  emitOperation tag (.filesystem request.operation.expectedResult) .filesystem continuation
    writeBytes (.filesystem · request)

/-- mod.rs:1775. -/
def emitPolicy (tag : Tag) (request : PolicyRequest) (continuation : Continuation)
    (writeBytes : Nat) : Act Unit :=
  emitOperation tag (.policy request.expectedResult) .policy continuation writeBytes
    (.policy · request)

/-! ## Undoing a reservation -/

namespace Session

/-- mod.rs:2188. -/
def rollbackWalk (s : Session) (sourceFid newFid : Fid) (source : ObjectFid) : Session :=
  if sourceFid = newFid then s.setFid sourceFid (.object source) else s.retireFid newFid

/-- mod.rs:2196. -/
def rollbackContinuation (s : Session) : Continuation → Session
  | .authStart fid | .attach fid | .authClunk fid => s.retireFid fid
  | .walk sourceFid newFid source _ => s.rollbackWalk sourceFid newFid source
  | .releaseFid fid | .removeFid fid => s.retireFid fid
  | .open fid original | .create fid original => s.setFid fid (.object original)
  | .noState _ | .authRead _ | .authWrite _ | .read _ | .write _ | .statfs | .getattr | .setattr
  | .readlink | .readdir _ | .mkdir | .mknod | .symlink | .xattrRead _ | .fsync | .lock
  | .getlock => s
  | .xattrWalk newFid _ => s.retireFid newFid
  | .xattrCreate fid original _ | .xattrWrite fid original _ => s.setFid fid (.object original)
  | .xattrCommitFid fid | .xattrAbortFid fid _ => s.retireFid fid

end Session

/-- `emit_filesystem_checked` (mod.rs:1754): on behalf of the object behind a fid. -/
def emitFilesystemChecked (tag : Tag) (context : RequestContext) (capabilities : CapabilitySet)
    (operation : FilesystemOperation) (continuation : Continuation) (writeBytes : Nat) : Act Unit :=
  fun s => match capabilities.requireFor operation with
    | .error _ => queueStateError tag .unsupported (s.rollbackContinuation continuation)
    | .ok () => emitFilesystem tag ⟨context, operation⟩ continuation writeBytes s

/-- `require_for`, then mark the fid as reserved and emit; if that fails the fid gets its state back
(as in mod.rs:1014-1034). -/
def emitReserving (tag : Tag) (fid : Fid) (object : ObjectFid) (operation : FilesystemOperation)
    (continuation : Continuation) (writeBytes : Nat) : Act Unit := fun s =>
  match object.capabilities.requireFor operation with
  | .error _ => queueStateError tag .unsupported s
  | .ok () =>
    undoing (emitFilesystem tag ⟨object.context, operation⟩ continuation writeBytes)
      (·.setFid fid (.object object)) (s.setFid fid .pending)

end W9pt.Connection
