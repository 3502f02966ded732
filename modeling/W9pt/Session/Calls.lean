import W9pt.Session.Handlers

/-!
# Completions and the public calls (`session/mod.rs:156-316, 1860-2186`)
-/

namespace W9pt.Connection

open Lib Protocol

namespace Session

/-! ## Successful completions -/

/-- `if ok { response } else { Rlerror(EIO) }`. -/
def orEio (condition : Bool) (response : ResponseBody) : ResponseBody :=
  if condition then response else .lerror LinuxErrno.EIO

/-- mod.rs:1923. -/
def finishPolicySuccess (s : Session) : Continuation → PolicyResult → ResponseBody × Session
  | .authStart fid, .authStarted qid handle => (.auth qid, s.setFid fid (.auth qid handle))
  | .attach fid, .attached attach =>
    (.attach attach.qid, s.setFid fid (.object {
      object := attach.root
      qid := attach.qid
      context := ⟨s.context.sessionId, attach.principal, attach.exportId⟩
      capabilities := attach.capabilities
      openInstance := none
      xattr := none }))
  | .authRead maximum, .authRead data =>
    (orEio (data.length ≤ maximum.toNat) (.read data), s)
  | .authWrite requested, .authWritten count => (orEio (count ≤ requested) (.write count), s)
  | .authClunk fid, .authClunked => (.clunk, s.retireFid fid)
  | .noState response, _ => (response, s)
  | continuation, _ => (.lerror LinuxErrno.EIO, s.rollbackContinuation continuation)

/-- `io_unit.min(active_msize - IO_HEADER_SIZE)` (mod.rs:2033-2036). -/
def ioUnit (s : Session) (unit : UInt32) : UInt32 :=
  min unit (UInt32.ofNat (s.activeMsize.toNat - 24))

/-- The bytes of an xattr accepted so far (mod.rs:2153-2160). -/
def addWritten (object : ObjectFid) (count : UInt32) : ObjectFid :=
  match object.xattr with
  | some ⟨handle, .write expectedSize written⟩ =>
    { object with xattr := some ⟨handle, .write expectedSize
        (UInt64.ofNat (min (written.toNat + count.toNat) (2 ^ 64 - 1)))⟩ }
  | _ => object

/-- The outcome of a walk (mod.rs:1987-2012). -/
def finishWalk (s : Session) (sourceFid newFid : Fid) (source : ObjectFid) (requested : Nat)
    (elements : List WalkElement) : ResponseBody × Session :=
  match elements.getLast? with
  | none => (.lerror .ENOENT, s.rollbackWalk sourceFid newFid source)
  | some last =>
    if requested < elements.length then
      (.lerror LinuxErrno.EIO, s.rollbackWalk sourceFid newFid source)
    else
      (.walk (elements.map (·.qid)), s.setFid newFid (.object { source with
        object := last.object, qid := last.qid, openInstance := none, xattr := none }))

/-- The entries of a directory, as far as they fit (mod.rs:2084-2093). -/
def readdirResponse (s : Session) (maximum : UInt32) (entries : List DirectoryEntry) :
    ResponseBody :=
  match encodeDirectoryEntries entries maximum.toNat s.limits.maxStringBytes with
  | .ok data => .readdir data
  | .error _ => .lerror LinuxErrno.EIO

/-- The outcome of an xattr write (mod.rs:2143-2168). -/
def finishXattrWrite (s : Session) (fid : Fid) (original : ObjectFid) (requested count : UInt32) :
    ResponseBody × Session :=
  if requested < count then (.lerror LinuxErrno.EIO, s.setFid fid (.object original))
  else (.write count, s.setFid fid (.object (addWritten original count)))

/-- mod.rs:1980. -/
def finishFilesystemSuccess (s : Session) : Continuation → FilesystemResult → ResponseBody × Session
  | .walk sourceFid newFid source requested, .walked elements =>
    s.finishWalk sourceFid newFid source requested elements
  | .releaseFid fid, .released => (.clunk, s.retireFid fid)
  | .removeFid fid, .removed => (.remove, s.retireFid fid)
  | .open fid original, .opened opened =>
    (.lopen opened.qid (s.ioUnit opened.ioUnit), s.setFid fid (.object { original with
      qid := opened.qid, openInstance := some opened.openInstance, xattr := none }))
  | .create fid original, .created created =>
    (.lcreate created.qid (s.ioUnit created.ioUnit), s.setFid fid (.object { original with
      object := created.object, qid := created.qid, openInstance := some created.openInstance,
      xattr := none }))
  | .read maximum, .read data => (orEio (data.length ≤ maximum.toNat) (.read data), s)
  | .write requested, .written count => (orEio (count ≤ requested) (.write count), s)
  | .statfs, .statfs statfs => (.statfs statfs, s)
  | .getattr, .attributes attributes =>
    (orEio attributes.validate.isOk (.getattr attributes), s)
  | .setattr, .attributesSet => (.setattr, s)
  | .readlink, .linkTarget target =>
    (orEio (target.length ≤ s.limits.maxStringBytes && 9 + target.length ≤ s.activeMsize.toNat)
      (.readlink target), s)
  | .readdir maximum, .directoryRead entries => (s.readdirResponse maximum entries, s)
  | .mkdir, .directoryCreated node => (.mkdir node.qid, s)
  | .mknod, .nodeCreated node => (.mknod node.qid, s)
  | .symlink, .symlinkCreated node => (.symlink node.qid, s)
  | .xattrWalk newFid source, .xattrWalked walked =>
    (.xattrWalk walked.size, s.setFid newFid (.object { source with
      openInstance := none, xattr := some ⟨walked.xattr, .read walked.size⟩ }))
  | .xattrCreate fid original expectedSize, .xattrCreated xattr =>
    (.xattrCreate, s.setFid fid (.object { original with
      openInstance := none, xattr := some ⟨xattr, .write expectedSize 0⟩ }))
  | .xattrRead maximum, .xattrRead data => (orEio (data.length ≤ maximum.toNat) (.read data), s)
  | .xattrWrite fid original requested, .xattrWritten count =>
    s.finishXattrWrite fid original requested count
  | .xattrCommitFid fid, .xattrCommitted => (.clunk, s.retireFid fid)
  | .xattrAbortFid fid errno, .released => (.lerror errno, s.retireFid fid)
  | .fsync, .synced => (.fsync, s)
  | .lock, .locked status => (.lock status, s)
  | .getlock, .lockQueried lock => (.getlock lock, s)
  | .noState response, _ => (response, s)
  | continuation, _ => (.lerror LinuxErrno.EIO, s.rollbackContinuation continuation)

/-! ## Replies to a finished request -/

/-- Queue a reply; the connection closes when it does not fit (mod.rs:1886-1896, 1908-1917). -/
def replyOrFail (order : HashOrder) (s : Session) (response : Response) (reason : String) : Session :=
  match queueResponse response s with
  | .ok () s => s
  | .error _ s => s.failProtocol order reason

/-- Removing an active flush and answering it (mod.rs:1904-1917). -/
def answerFlush (order : HashOrder) (s : Session) (tag : Tag) (flush : FlushState) : Session :=
  let s := { s with
    flushes := s.flushes.erase tag
    accounting := { s.accounting with
      inFlightTags := Accounting.release s.accounting.inFlightTags 1 } }
  if flush.responseSuppressed then s
  else s.replyOrFail order ⟨tag, .flush⟩ "Rflush could not be queued"

/-- `finish_flush` (mod.rs:1903). Every nested call removes an active flush, so their number bounds
the depth of the recursion (`finishFlush_works`). -/
def finishFlush (order : HashOrder) : Nat → Session → Tag → Session
  | 0, s, _ => s
  | depth + 1, s, tag =>
    match s.flushes[tag]? with
    | none => s
    | some flush => flush.waiters.foldl (finishFlush order depth) (s.answerFlush order tag flush)

/-- The `for` over the flushes waiting for an operation (mod.rs:1898-1900). -/
def finishFlushes (order : HashOrder) (s : Session) (waiters : List Tag) : Session :=
  waiters.foldl (fun s tag => finishFlush order (s.flushes.size + 1) s tag) s

/-- The reply a completion leads to, and its effect on the fids (mod.rs:1861-1882). -/
def settle (s : Session) (continuation : Continuation) : Completion → ResponseBody × Session
  | .filesystem _ (.error error) => (.lerror error.errno, s.rollbackContinuation continuation)
  | .policy _ (.error errno) => (.lerror errno, s.rollbackContinuation continuation)
  | .cancelled .. => (.lerror .ECANCELED, s.rollbackContinuation continuation)
  | .policy _ (.ok result) => s.finishPolicySuccess continuation result
  | .filesystem _ (.ok result) => s.finishFilesystemSuccess continuation result

/-- mod.rs:1860. -/
def finishPending (order : HashOrder) (s : Session) (tag : Tag) (pending : PendingOperation)
    (completion : Completion) : Session :=
  let (response, s) := s.settle pending.continuation completion
  let s := if s.terminalReason.isSome then s.drainFidsToCleanup order else s
  let s := if pending.responseSuppressed then s
    else s.replyOrFail order ⟨tag, response⟩ "terminal completion response could not be queued"
  s.finishFlushes order pending.flushWaiters

/-- An outstanding operation leaves the indexes (mod.rs:217-228). -/
def untrack (s : Session) (operationId : OperationId) (tag : Tag) (pending : PendingOperation) :
    Session :=
  { s with
    tagByOperation := s.tagByOperation.erase operationId
    pendingByTag := s.pendingByTag.erase tag
    accounting := { s.accounting with
      inFlightTags := Accounting.release s.accounting.inFlightTags 1
      pendingWriteBytes := Accounting.release s.accounting.pendingWriteBytes pending.writeBytes } }

end Session

/-! ## Public calls -/

/-- mod.rs:209. -/
def complete (order : HashOrder) (completion : Completion) :
    EStateM (Abort CompletionError) Session Unit := fun s =>
  match s.tagByOperation[completion.operationId]? with
  | some tag =>
    match s.pendingByTag[tag]? with
    | none => .error (.panicked "operation index and tag index remain synchronized") s
    | some pending =>
      match pending.expected.validate completion with
      | .error error => .error (.error error) s
      | .ok () =>
        .ok () ((s.untrack completion.operationId tag pending).finishPending order tag pending
          completion)
  | none =>
    match s.abandonedOperations[completion.operationId]? with
    | some expected =>
      match expected.validate completion with
      | .error error => .error (.error error) s
      | .ok () => .ok ()
          { s with abandonedOperations := s.abandonedOperations.erase completion.operationId }
    | none =>
      if completion.operationId ≤ s.lastIssuedOperationId then
        .error (.error (.duplicateOperation completion.operationId)) s
      else .error (.error (.unknownOperation completion.operationId)) s

namespace Session

/-- A cleanup request becomes an operation nobody waits for (mod.rs:272-286, 288-303). -/
def emitCleanup (s : Session) (expected : ExpectedCompletion) (effect : OperationId → Effect) :
    Option Effect × Session :=
  match s.operationIds with
  | none => (none, { s with terminalReason := some .resourceExhausted })
  | some id =>
    (some (effect id),
      { s.issue id with abandonedOperations := s.abandonedOperations.insert id expected })

/-- mod.rs:267. -/
def cleanupEffect (s : Session) : CleanupAction → Option Effect × Session
  | .cancel operationId kind => (some (.cancel operationId kind), s)
  | .policy request => s.emitCleanup (.policy request.expectedResult) (.policy · request)
  | .filesystem request =>
    s.emitCleanup (.filesystem request.operation.expectedResult) (.filesystem · request)

/-- mod.rs:246. -/
def pollEffect (s : Session) : Option Effect × Session :=
  match s.effects with
  | effect :: effects =>
    (some effect, { s with
      effects
      accounting := { s.accounting with
        queuedEffects := Accounting.release s.accounting.queuedEffects 1
        queuedEffectBytes :=
          Accounting.release s.accounting.queuedEffectBytes effect.retainedBytes } })
  | [] =>
    match s.cleanup with
    | action :: cleanup => { s with cleanup }.cleanupEffect action
    | [] =>
      match s.terminalReason with
      | some reason =>
        if s.terminalEffectDelivered then (none, s)
        else (some (.closeSession reason), { s with terminalEffectDelivered := true })
      | none => (none, s)

/-- session/mod.rs:44. -/
inductive SessionStatus where
  | active | closing | drained
deriving DecidableEq

/-- mod.rs:115. -/
def status (s : Session) : SessionStatus :=
  if s.terminalReason.isNone then .active
  else if s.effects.isEmpty && s.pendingByTag.isEmpty && s.flushes.isEmpty &&
      s.abandonedOperations.isEmpty && s.cleanup.isEmpty && s.terminalEffectDelivered then .drained
  else .closing

/-- `begin_close` (mod.rs:156); `transport_closed` (mod.rs:164) is the same call. -/
def beginClose (order : HashOrder) (s : Session) : Session :=
  startCleanup order { s with terminalReason := some (s.terminalReason.getD .hostShutdown) }

end Session

/-- mod.rs:307. -/
def receiveDecodedFrame (order : HashOrder) (frame : Bytes) : Act Unit := fun s =>
  match decodeRequest frame s.limits s.activeMsize with
  | .error error => .error (.error (.decode error)) (s.failDecode order error)
  | .ok request => dispatch order request s

/-- `ensure_active` (mod.rs:2248), then the call itself. -/
def whileActive (action : Act Unit) : Act Unit := fun s =>
  if s.terminalReason.isSome then .error (.error .closing) s else action s

/-- mod.rs:198. -/
def receiveFrame (order : HashOrder) (frame : Bytes) : Act Unit :=
  whileActive (receiveDecodedFrame order frame)

/-- The loop of `receive_bytes` (mod.rs:183-188). -/
def receiveFrames (order : HashOrder) : List Bytes → Act Unit
  | [] => pure ()
  | frame :: frames => do
    receiveDecodedFrame order frame
    if (← get).terminalReason.isNone then receiveFrames order frames

/-- mod.rs:174. -/
def receiveBytes (order : HashOrder) (bytes : Bytes) : Act Unit :=
  whileActive fun s =>
    match s.decoder.push bytes s.activeMsize with
    | (.error error, decoder) =>
      .error (.error (.decode error)) ({ s with decoder }.failDecode order error)
    | (.ok frames, decoder) => receiveFrames order frames { s with decoder }

/-! ## Runs -/

inductive Call where
  | receiveBytes (bytes : Bytes)
  | receiveFrame (frame : Bytes)
  | complete (completion : Completion)
  | pollEffect
  | beginClose
  | transportClosed

inductive Answer where
  | received (result : Except SessionError Unit)
  | completed (result : Except CompletionError Unit)
  | polled (effect : Option Effect)
  | closing
  | panicked (message : String)

/-- A call was refused because a configured bound was reached. -/
def Answer.limited : Answer → Bool
  | received (.error (.limit _)) => true
  | _ => false

def answerOf : EStateM.Result (Abort SessionError) Session Unit → Answer × Session
  | .ok () s => (.received (.ok ()), s)
  | .error (.error error) s => (.received (.error error), s)
  | .error (.panicked message) s => (.panicked message, s)

def completionAnswerOf : EStateM.Result (Abort CompletionError) Session Unit → Answer × Session
  | .ok () s => (.completed (.ok ()), s)
  | .error (.error error) s => (.completed (.error error), s)
  | .error (.panicked message) s => (.panicked message, s)

def call (order : HashOrder) (s : Session) : Call → Answer × Session
  | .receiveBytes bytes => answerOf (receiveBytes order bytes s)
  | .receiveFrame frame => answerOf (receiveFrame order frame s)
  | .complete completion => completionAnswerOf (complete order completion s)
  | .pollEffect => (.polled s.pollEffect.1, s.pollEffect.2)
  | .beginClose | .transportClosed => (.closing, s.beginClose order)

/-- The states a session can be in: created with valid limits, then called in any way. Every call may
iterate over the hash maps in its own order. -/
inductive Reachable : Session → Prop where
  | new {limits : Limits} {context : SessionContext} {s : Session}
      (created : Session.new limits context = .ok s) : Reachable s
  | call {s : Session} (before : Reachable s) (order : HashOrder) (c : Call) :
      Reachable (call order s c).2

def Session.run (order : HashOrder) (s : Session) (calls : List Call) : Session :=
  calls.foldl (fun s c => (call order s c).2) s

theorem Reachable.run {s : Session} (h : Reachable s) (order : HashOrder) (calls : List Call) :
    Reachable (s.run order calls) := by
  induction calls generalizing s with
  | nil => exact h
  | cons c calls ih => exact ih (h.call order c)

end W9pt.Connection
