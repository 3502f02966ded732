import W9pt.Session.Calls
import W9pt.Lib.FinMap

/-!
# What a handler decides

A handler reads the fids of the session, decides what to do, and does it. The decision is a `Plan`:
answer at once, clone a fid, or emit one operation, possibly with a fid reserved for it. `plan` states
every decision as a function of the session, `Plan.perform` carries a plan out, and
`carries_serve` says that the handlers are the composition of the two. What holds of every
operation a session emits is read off `plan`; what a limit can interrupt is read off `perform`.

| here | there |
|---|---|
| `Work` | the effects `emit_filesystem` and `emit_policy` queue (`mod.rs:1733-1794`) |
| `Reservation` | `claim_fid`, `fids.insert(fid, FidState::Pending)` |
| `plan` | `mod.rs:510-1540`, up to the first change of the session |
-/

namespace W9pt.Connection

open Lib Protocol Session

/-! ## Plans -/

inductive Work where
  | filesystem (request : FilesystemRequest)
  | policy (request : PolicyRequest)

/-- The fid that is set aside until the operation completes. -/
inductive Reservation where
  | nothing
  | claim (fid : Fid)
  | take (fid : Fid) (state : FidState)

def Continuation.owned : Continuation → Option Fid
  | .authStart fid | .attach fid | .authClunk fid | .walk _ fid .. | .releaseFid fid | .removeFid fid
  | .open fid _ | .create fid _ | .xattrWalk fid _ | .xattrCreate fid .. | .xattrWrite fid ..
  | .xattrCommitFid fid | .xattrAbortFid fid _ => some fid
  | .noState _ | .authRead _ | .authWrite _ | .read _ | .write _ | .statfs | .getattr | .setattr
  | .readlink | .readdir _ | .mkdir | .mknod | .symlink | .xattrRead _ | .fsync | .lock
  | .getlock => none

/-- What a handler decides to do. -/
inductive Plan where
  | reply (body : ResponseBody)
  | clone (fid : Fid) (object : ObjectFid)
  | emit (reservation : Reservation) (work : Work) (continuation : Continuation) (writeBytes : Nat)

namespace Work

def expected : Work → ExpectedCompletion
  | filesystem request => .filesystem request.operation.expectedResult
  | policy request => .policy request.expectedResult

def kind : Work → CancelKind
  | filesystem _ => .filesystem
  | policy _ => .policy

def effect : Work → OperationId → Effect
  | filesystem request, id => .filesystem id request
  | policy request, id => .policy id request

/-- `emit_filesystem` or `emit_policy`. -/
def emit (work : Work) (tag : Tag) (continuation : Continuation) (writeBytes : Nat) : Act Unit :=
  emitOperation tag work.expected work.kind continuation writeBytes work.effect

end Work

/-- The session with the fid set aside; a new fid has to fit the table. -/
def Reservation.reserve (reservation : Reservation) (s : Session) :
    Except LimitExceeded Session :=
  match reservation with
  | nothing => .ok s
  | claim fid =>
    match Accounting.reserve s.accounting.fids 1 s.limits.maxFids .fids with
    | .error error => .error error
    | .ok _ => .ok (s.claim fid)
  | take fid _ => .ok (s.setFid fid .pending)

/-- The session with the reservation given up. -/
def Reservation.release (reservation : Reservation) (s : Session) : Session :=
  match reservation with
  | nothing => s
  | claim fid => s.retireFid fid
  | take fid state => s.setFid fid state

def Plan.perform (tag : Tag) : Plan → Act Unit
  | reply body => queueResponse ⟨tag, body⟩
  | clone fid object => fun s =>
    match (Reservation.claim fid).reserve s with
    | .error error => .error (.error (.limit error)) s
    | .ok s => queueResponse ⟨tag, .walk []⟩ (s.setFid fid (.object object))
  | emit reservation work continuation writeBytes => fun s =>
    match reservation.reserve s with
    | .error error => .error (.error (.limit error)) s
    | .ok s => undoing (work.emit tag continuation writeBytes) reservation.release s

/-! ## Decisions -/

def Plan.refuse (error : SessionStateError) : Plan := .reply (.lerror error.errno)

namespace Session

variable (s : Session)

/-- What to do with an object fid, also one of an xattr. -/
def planObject (fid : Fid) (next : ObjectFid → Plan) : Plan :=
  match s.fids[fid]? with
  | some (.object object) => next object
  | some _ => .refuse .wrongFidKind
  | none => .refuse .unknownFid

def planAuth (fid : Fid) (next : Qid → AuthHandle → Plan) : Plan :=
  match s.fids[fid]? with
  | some (.auth qid handle) => next qid handle
  | _ => .refuse .unknownFid

/-- What to do with an object fid that is no xattr. -/
def planPlain (fid : Fid) (next : ObjectFid → Plan) : Plan :=
  s.planObject fid fun object =>
    if object.xattr.isNone then next object else .refuse .wrongFidKind

def planDirectory (fid : Fid) (next : ObjectFid → Plan) : Plan :=
  s.planPlain fid fun object =>
    if object.qid.hasType Qid.directory then next object else .reply (.lerror .ENOTDIR)

/-- A new fid for the result of an operation. -/
def planClaim (fid : Fid) (work : Work) (continuation : Continuation) : Plan :=
  if fid ∈ s.fids then .refuse .duplicateFid else .emit (.claim fid) work continuation 0

end Session

/-- An operation on behalf of a fid, if the fid's capabilities permit it. -/
def ObjectFid.planChecked (object : ObjectFid) (reservation : Reservation)
    (operation : FilesystemOperation) (continuation : Continuation) (writeBytes : Nat) : Plan :=
  match object.capabilities.requireFor operation with
  | .error _ => .refuse .unsupported
  | .ok () => .emit reservation (.filesystem ⟨object.context, operation⟩) continuation writeBytes

/-- The same with the fid itself set aside. -/
def ObjectFid.planReserving (object : ObjectFid) (fid : Fid) (operation : FilesystemOperation)
    (continuation : Continuation) (writeBytes : Nat) : Plan :=
  object.planChecked (.take fid (.object object)) operation continuation writeBytes

namespace Session

variable (s : Session)

/-- An operation on the open instance of a fid. -/
def planOpen (fid : Fid) (operation : OpenHandle → FilesystemOperation)
    (continuation : Continuation) : Plan :=
  s.planPlain fid fun object => match object.openInstance with
    | none => .refuse .fidNotOpen
    | some handle => object.planChecked .nothing (operation handle) continuation 0

def planInDirectory (directory : Fid) (operation : ObjectHandle → FilesystemOperation)
    (continuation : Continuation) : Plan :=
  s.planDirectory directory fun parent =>
    parent.planChecked .nothing (operation parent.object) continuation 0

def planPair (first second : ObjectFid)
    (operation : ObjectHandle → ObjectHandle → FilesystemOperation) (response : ResponseBody) :
    Plan :=
  if first.context ≠ second.context then .reply (.lerror .EXDEV)
  else first.planChecked .nothing (operation first.object second.object) (.noState response) 0

def planOnObject (fid : Fid) (operation : ObjectHandle → FilesystemOperation)
    (continuation : Continuation) : Plan :=
  s.planObject fid fun object =>
    object.planChecked .nothing (operation object.object) continuation 0

def planUnopened (fid : Fid) (operation : ObjectHandle → FilesystemOperation)
    (continuation : ObjectFid → Continuation) : Plan :=
  s.planObject fid fun object =>
    if object.openInstance.isSome || object.xattr.isSome then .refuse .fidAlreadyOpen
    else object.planReserving fid (operation object.object) (continuation object) 0

/-- mod.rs:656. -/
def planReaddir (fid : Fid) (offset : UInt64) (count : UInt32) : Plan :=
  s.planObject fid fun object => match object.openInstance with
    | none => .refuse .fidNotOpen
    | some handle =>
      if !object.qid.hasType Qid.directory || object.xattr.isSome then .reply (.lerror .ENOTDIR)
      else object.planChecked .nothing (.readDir handle offset (s.readMaximum count))
        (.readdir (s.readMaximum count)) 0

/-- mod.rs:1306. -/
def planObjectClunk (fid : Fid) : Plan :=
  s.planObject fid fun object => match object.xattr with
    | some ⟨handle, .write expectedSize written⟩ =>
      if written = expectedSize then
        object.planReserving fid (.xattrCommit handle expectedSize) (.xattrCommitFid fid) 0
      else
        object.planReserving fid (.release object.object object.openInstance (some handle))
          (.xattrAbortFid fid .EINVAL) 0
    | _ => object.planReserving fid
        (.release object.object object.openInstance (object.xattr.map (·.handle)))
        (.releaseFid fid) 0

/-- mod.rs:1079-1152. -/
def planFileRead (fid : Fid) (offset : UInt64) (count : UInt32) : Plan :=
  s.planObject fid fun object => match object.xattr with
    | some xattr => match xattr.mode with
      | .write .. => .refuse .wrongFidKind
      | .read size =>
        if size ≤ offset then .reply (.read [])
        else
          let maximum := min (s.readMaximum count) (clampLength (size - offset).toNat)
          object.planChecked .nothing (.xattrRead xattr.handle offset maximum)
            (.xattrRead maximum) 0
    | none => match object.openInstance with
      | none => .refuse .fidNotOpen
      | some handle =>
        if (checkedAdd offset (s.readMaximum count).toUInt64).isNone then .reply (.lerror .EOVERFLOW)
        else object.planChecked .nothing (.read handle offset (s.readMaximum count))
          (.read (s.readMaximum count)) 0

/-- mod.rs:1154-1242. -/
def planFileWrite (fid : Fid) (offset : UInt64) (data : Bytes) : Plan :=
  s.planObject fid fun object => match object.xattr with
    | some xattr => match xattr.mode with
      | .read _ => .refuse .wrongFidKind
      | .write expectedSize written =>
        match checkedAdd offset (UInt64.ofNat data.length) with
        | none => .reply (.lerror .EOVERFLOW)
        | some finish =>
          if offset ≠ written ∨ expectedSize < finish then .refuse .invalidRequest
          else object.planReserving fid (.xattrWrite xattr.handle offset data)
            (.xattrWrite fid object (clampLength data.length)) data.length
    | none => match object.openInstance with
      | none => .refuse .fidNotOpen
      | some handle =>
        if (checkedAdd offset (UInt64.ofNat data.length)).isNone then .reply (.lerror .EOVERFLOW)
        else object.planChecked .nothing (.write handle offset data)
          (.write (clampLength data.length)) data.length

/-- mod.rs:1244. -/
def planWalk (sourceFid newFid : Fid) (names : List Bytes) : Plan :=
  s.planObject sourceFid fun source =>
    if source.openInstance.isSome || source.xattr.isSome then .refuse .fidAlreadyOpen
    else if names = [] then
      if newFid = sourceFid then .reply (.walk [])
      else if newFid ∈ s.fids then .refuse .duplicateFid
      else .clone newFid source
    else match source.capabilities.requireFor (.walk source.object names) with
      | .error _ => .refuse .unsupported
      | .ok () =>
        let work := Work.filesystem ⟨source.context, .walk source.object names⟩
        let continuation := Continuation.walk sourceFid newFid source names.length
        if newFid = sourceFid then .emit (.take sourceFid (.object source)) work continuation 0
        else s.planClaim newFid work continuation

/-- mod.rs:574. -/
def planXattrWalk (fid newFid : Fid) (name : Bytes) : Plan :=
  if fid = newFid then .refuse .invalidRequest
  else s.planPlain fid fun source =>
    match source.capabilities.requireFor (.xattrWalk source.object name) with
    | .error _ => .refuse .unsupported
    | .ok () => s.planClaim newFid (.filesystem ⟨source.context, .xattrWalk source.object name⟩)
        (.xattrWalk newFid source)

/-- mod.rs:1459-1472. -/
def planAttachWith (fid : Fid) (auth : Option AuthHandle) (uname aname : Bytes) (nUname : UInt32) :
    Plan :=
  s.planClaim fid
    (.policy (.attach fid auth (.fromWire uname nUname) aname s.context.transportPrincipal))
    (.attach fid)

/-- mod.rs:1437. -/
def planAttach (fid afid : Fid) (uname aname : Bytes) (nUname : UInt32) : Plan :=
  if fid = nofid then .refuse .invalidRequest
  else if afid = nofid then s.planAttachWith fid none uname aname nUname
  else match s.fids[afid]? with
    | some (.auth _ handle) => s.planAttachWith fid (some handle) uname aname nUname
    | some _ => .refuse .wrongFidKind
    | none => .refuse .unknownFid

/-- The decision on a request of a negotiated session, `Tversion` and `Tflush` apart. -/
def plan : RequestBody → Plan
  | .version .. | .flush _ => .reply .flush
  | .auth afid uname aname nUname =>
    if afid = nofid then .refuse .invalidRequest
    else s.planClaim afid
      (.policy (.startAuth afid (.fromWire uname nUname) aname s.context.transportPrincipal))
      (.authStart afid)
  | .attach fid afid uname aname nUname => s.planAttach fid afid uname aname nUname
  | .read fid offset count =>
    if s.isAuth fid then s.planAuth fid fun _ handle =>
      .emit .nothing (.policy (.readAuth handle offset (s.readMaximum count)))
        (.authRead (s.readMaximum count)) 0
    else s.planFileRead fid offset count
  | .write fid offset data =>
    if s.isAuth fid then s.planAuth fid fun _ handle =>
      .emit .nothing (.policy (.writeAuth handle offset data)) (.authWrite (clampLength data.length))
        data.length
    else s.planFileWrite fid offset data
  | .clunk fid =>
    if s.isAuth fid then s.planAuth fid fun qid handle =>
      .emit (.take fid (.auth qid handle)) (.policy (.clunkAuth handle)) (.authClunk fid) 0
    else s.planObjectClunk fid
  | .lopen fid flags => s.planUnopened fid (.open · flags) (.open fid)
  | .lcreate fid name flags mode gid =>
    s.planUnopened fid (.create · name flags mode gid) (.create fid)
  | .statfs fid => s.planOnObject fid .statfs .statfs
  | .getattr fid mask => s.planOnObject fid (.getattr · mask) .getattr
  | .setattr fid attributes => s.planOnObject fid (.setattr · attributes) .setattr
  | .readlink fid => s.planObject fid fun object =>
    if object.xattr.isSome then .refuse .wrongFidKind
    else object.planChecked .nothing (.readlink object.object) .readlink 0
  | .readdir fid offset count => s.planReaddir fid offset count
  | .mkdir directory name mode gid => s.planInDirectory directory (.mkdir · name mode gid) .mkdir
  | .mknod directory name mode major minor gid =>
    s.planInDirectory directory (.mknod · name mode major minor gid) .mknod
  | .symlink directory name target gid =>
    s.planInDirectory directory (.symlink · name target gid) .symlink
  | .unlinkAt directory name flags =>
    s.planInDirectory directory (.unlinkAt · name flags) (.noState .unlinkAt)
  | .link directory target name =>
    s.planDirectory directory fun first => s.planPlain target fun second =>
      planPair first second (.link · · name) .link
  | .rename fid directory name =>
    s.planPlain fid fun first => s.planDirectory directory fun second =>
      planPair first second (.rename · · name) .rename
  | .renameAt oldDirectory oldName newDirectory newName =>
    s.planDirectory oldDirectory fun first => s.planDirectory newDirectory fun second =>
      planPair first second (.renameAt · oldName · newName) .renameAt
  | .xattrWalk fid newFid name => s.planXattrWalk fid newFid name
  | .xattrCreate fid name size flags => s.planPlain fid fun original =>
    if original.openInstance.isSome then .refuse .fidAlreadyOpen
    else original.planReserving fid (.xattrCreate original.object name size flags)
      (.xattrCreate fid original size) 0
  | .fsync fid dataOnly => s.planOpen fid (.fsync · dataOnly) .fsync
  | .lock fid request => s.planOpen fid (.lock · request) .lock
  | .getlock fid query => s.planOpen fid (.getlock · query) .getlock
  | .walk fid newFid names => s.planWalk fid newFid names
  | .remove fid => s.planObject fid fun object =>
    if object.xattr.isSome then .refuse .wrongFidKind
    else object.planReserving fid
      (.remove object.object object.openInstance (object.xattr.map (·.handle))) (.removeFid fid) 0

end Session

/-! ## What can be decided -/

def objectsOf : FilesystemOperation → List ObjectHandle
  | .walk object _ | .release object .. | .open object _ | .create object .. | .mkdir object ..
  | .mknod object .. | .symlink object .. | .statfs object | .getattr object _ | .setattr object _
  | .readlink object | .remove object .. | .unlinkAt object .. | .xattrWalk object _
  | .xattrCreate object .. => [object]
  | .rename object directory _ => [object, directory]
  | .renameAt oldDirectory _ newDirectory _ => [oldDirectory, newDirectory]
  | .link directory target _ => [directory, target]
  | .read .. | .write .. | .readDir .. | .fsync .. | .xattrRead .. | .xattrWrite .. | .xattrCommit ..
  | .lock .. | .getlock .. => []

def opensOf : FilesystemOperation → List OpenHandle
  | .release _ handle _ | .remove _ handle _ => handle.toList
  | .read handle .. | .write handle .. | .readDir handle .. | .fsync handle _ | .lock handle _
  | .getlock handle _ => [handle]
  | .walk .. | .open .. | .create .. | .mkdir .. | .mknod .. | .symlink .. | .statfs _ | .getattr ..
  | .setattr .. | .readlink _ | .rename .. | .renameAt .. | .unlinkAt .. | .link .. | .xattrWalk ..
  | .xattrCreate .. | .xattrRead .. | .xattrWrite .. | .xattrCommit .. => []

def xattrsOf : FilesystemOperation → List XattrHandle
  | .release _ _ handle | .remove _ _ handle => handle.toList
  | .xattrRead handle .. | .xattrWrite handle .. | .xattrCommit handle _ => [handle]
  | .walk .. | .open .. | .create .. | .mkdir .. | .mknod .. | .symlink .. | .statfs _ | .getattr ..
  | .setattr .. | .readlink _ | .rename .. | .renameAt .. | .unlinkAt .. | .link .. | .xattrWalk ..
  | .xattrCreate .. | .read .. | .write .. | .readDir .. | .fsync .. | .lock .. | .getlock .. => []

/-- The operation ends the use of the handles it names (mod.rs:1306-1407). -/
def releases : FilesystemOperation → Bool
  | .release .. | .remove .. | .xattrCommit .. => true
  | _ => false

/-- The operation hands out an open instance or an extended attribute when it succeeds. -/
def yieldsHandle : FilesystemOperation → Bool
  | .open .. | .create .. | .xattrWalk .. | .xattrCreate .. => true
  | _ => false

def ObjectFid.xattrHandle (object : ObjectFid) : Option XattrHandle := object.xattr.map (·.handle)

/-- The handles an operation names are those of one fid. -/
structure ObjectFid.Covers (object : ObjectFid) (operation : FilesystemOperation) : Prop where
  objects : ∀ handle ∈ objectsOf operation, handle = object.object
  opens : ∀ handle ∈ opensOf operation, object.openInstance = some handle
  xattrs : ∀ handle ∈ xattrsOf operation, object.xattrHandle = some handle

/-- A fid that is neither open nor an xattr. -/
structure ObjectFid.Unused (object : ObjectFid) : Prop where
  unopened : object.openInstance = none
  plain : object.xattr = none

/-- How a fid is used up by the operation on it: released, committed or removed. -/
inductive ObjectFid.EndsBy (object : ObjectFid) (fid : Fid) :
    FilesystemOperation → Continuation → Prop where
  | released : object.EndsBy fid
      (.release object.object object.openInstance object.xattrHandle) (.releaseFid fid)
  | aborted {errno : LinuxErrno} : object.EndsBy fid
      (.release object.object object.openInstance object.xattrHandle) (.xattrAbortFid fid errno)
  | committed {xattr : XattrState} {size : UInt64} (held : object.xattr = some xattr) :
      object.EndsBy fid (.xattrCommit xattr.handle size) (.xattrCommitFid fid)
  | removed (plain : object.xattr = none) : object.EndsBy fid
      (.remove object.object object.openInstance none) (.removeFid fid)

/-- How an operation changes the fid it is about, once it succeeds. -/
inductive ObjectFid.ChangesBy (object : ObjectFid) (fid : Fid) :
    FilesystemOperation → Continuation → Prop where
  | opened {flags : OpenFlags} (unused : object.Unused) :
      object.ChangesBy fid (.open object.object flags) (.open fid object)
  | created {name : Bytes} {flags : OpenFlags} {mode gid : UInt32} (unused : object.Unused) :
      object.ChangesBy fid (.create object.object name flags mode gid) (.create fid object)
  | xattrCreated {name : Bytes} {size : UInt64} {flags : XattrFlags} (unused : object.Unused) :
      object.ChangesBy fid (.xattrCreate object.object name size flags) (.xattrCreate fid object size)
  | xattrWritten {xattr : XattrState} {offset : UInt64} {data : Bytes} {requested : UInt32}
      (held : object.xattr = some xattr) :
      object.ChangesBy fid (.xattrWrite xattr.handle offset data) (.xattrWrite fid object requested)
  | walked {names : List Bytes} (unused : object.Unused) :
      object.ChangesBy fid (.walk object.object names) (.walk fid fid object names.length)

/-- How an operation on one fid makes another one, once it succeeds. -/
inductive ObjectFid.YieldsBy (object : ObjectFid) (fid newFid : Fid) :
    FilesystemOperation → Continuation → Prop where
  | walked {names : List Bytes} (unused : object.Unused) (other : newFid ≠ fid) :
      object.YieldsBy fid newFid (.walk object.object names) (.walk fid newFid object names.length)
  | xattrWalked {name : Bytes} (plain : object.xattr = none) :
      object.YieldsBy fid newFid (.xattrWalk object.object name) (.xattrWalk newFid object)

/-- The policy requests that make a new fid. -/
inductive AdmitsBy (s : Session) (fid : Fid) : PolicyRequest → Continuation → Prop where
  | auth {identity : UserIdentity} {name : Bytes} {principal : Option Bytes} :
      AdmitsBy s fid (.startAuth fid identity name principal) (.authStart fid)
  | attach {auth : Option AuthHandle} {identity : UserIdentity} {name : Bytes}
      {principal : Option Bytes}
      (held : ∀ handle ∈ auth, ∃ (afid : Fid) (qid : Qid), s.fids[afid]? = some (.auth qid handle)) :
      AdmitsBy s fid (.attach fid auth identity name principal) (.attach fid)

/-- The policy requests on an authentication fid. -/
inductive AuthenticatesBy (handle : AuthHandle) : PolicyRequest → Continuation → Prop where
  | read {offset : UInt64} {count maximum : UInt32} :
      AuthenticatesBy handle (.readAuth handle offset count) (.authRead maximum)
  | write {offset : UInt64} {data : Bytes} {requested : UInt32} :
      AuthenticatesBy handle (.writeAuth handle offset data) (.authWrite requested)

/-- **What can be decided**: every plan of a session is one of these. -/
inductive Decided (s : Session) : Plan → Prop where
  | reply (body : ResponseBody) : Decided s (.reply body)
  | clone {fid newFid : Fid} {source : ObjectFid} (present : s.fids[fid]? = some (.object source))
      (unused : source.Unused) (absent : newFid ∉ s.fids) : Decided s (.clone newFid source)
  /-- An operation that leaves its fid in use. -/
  | operate {fid : Fid} {object : ObjectFid} {operation : FilesystemOperation}
      {continuation : Continuation} {writeBytes : Nat}
      (present : s.fids[fid]? = some (.object object))
      (permitted : object.capabilities.requireFor operation = .ok ())
      (covers : object.Covers operation) (keeps : releases operation = false)
      (free : continuation.owned = none) (quiet : yieldsHandle operation = false) :
      Decided s (.emit .nothing (.filesystem ⟨object.context, operation⟩) continuation writeBytes)
  | pair {first second : Fid} {object other : ObjectFid} {operation : FilesystemOperation}
      {response : ResponseBody} (present : s.fids[first]? = some (.object object))
      (present' : s.fids[second]? = some (.object other)) (shared : object.context = other.context)
      (permitted : object.capabilities.requireFor operation = .ok ())
      (objects : objectsOf operation = [object.object, other.object])
      (opens : opensOf operation = []) (xattrs : xattrsOf operation = [])
      (keeps : releases operation = false) (quiet : yieldsHandle operation = false) :
      Decided s (.emit .nothing (.filesystem ⟨object.context, operation⟩) (.noState response) 0)
  | change {fid : Fid} {object : ObjectFid} {operation : FilesystemOperation}
      {continuation : Continuation} {writeBytes : Nat}
      (present : s.fids[fid]? = some (.object object))
      (permitted : object.capabilities.requireFor operation = .ok ())
      (changes : object.ChangesBy fid operation continuation) :
      Decided s (.emit (.take fid (.object object)) (.filesystem ⟨object.context, operation⟩)
        continuation writeBytes)
  | finish {fid : Fid} {object : ObjectFid} {operation : FilesystemOperation}
      {continuation : Continuation} (present : s.fids[fid]? = some (.object object))
      (permitted : object.capabilities.requireFor operation = .ok ())
      (ends : object.EndsBy fid operation continuation) :
      Decided s (.emit (.take fid (.object object)) (.filesystem ⟨object.context, operation⟩)
        continuation 0)
  | yield {fid newFid : Fid} {object : ObjectFid} {operation : FilesystemOperation}
      {continuation : Continuation} (present : s.fids[fid]? = some (.object object))
      (absent : newFid ∉ s.fids) (permitted : object.capabilities.requireFor operation = .ok ())
      (yields : object.YieldsBy fid newFid operation continuation) :
      Decided s (.emit (.claim newFid) (.filesystem ⟨object.context, operation⟩) continuation 0)
  | enrol {fid : Fid} {request : PolicyRequest} {continuation : Continuation}
      (absent : fid ∉ s.fids) (admits : AdmitsBy s fid request continuation) :
      Decided s (.emit (.claim fid) (.policy request) continuation 0)
  | authenticate {fid : Fid} {qid : Qid} {handle : AuthHandle} {request : PolicyRequest}
      {continuation : Continuation} {writeBytes : Nat}
      (present : s.fids[fid]? = some (.auth qid handle))
      (authenticates : AuthenticatesBy handle request continuation) :
      Decided s (.emit .nothing (.policy request) continuation writeBytes)
  | dismiss {fid : Fid} {qid : Qid} {handle : AuthHandle}
      (present : s.fids[fid]? = some (.auth qid handle)) :
      Decided s (.emit (.take fid (.auth qid handle)) (.policy (.clunkAuth handle))
        (.authClunk fid) 0)

/-- The fid whose capabilities decide about a request: of two fids, the first. -/
def issuedOn : RequestBody → Option Fid
  | .version .. | .auth .. | .attach .. | .flush _ => none
  | .walk fid .. | .clunk fid | .lopen fid _ | .lcreate fid .. | .mkdir fid .. | .mknod fid ..
  | .symlink fid .. | .read fid .. | .write fid .. | .readdir fid .. | .fsync fid _ | .statfs fid
  | .getattr fid _ | .setattr fid _ | .readlink fid | .rename fid .. | .renameAt fid ..
  | .remove fid | .unlinkAt fid .. | .link fid .. | .xattrWalk fid .. | .xattrCreate fid ..
  | .lock fid _ | .getlock fid _ => some fid

/-- A filesystem operation of the plan has the context of the fid and is within its capabilities. -/
def Plan.Permitted (s : Session) (issuer : Option Fid) : Plan → Prop
  | .emit _ (.filesystem request) _ _ => ∃ fid object, issuer = some fid ∧
      s.fids[fid]? = some (.object object) ∧ request.context = object.context ∧
      object.capabilities.requireFor request.operation = .ok ()
  | _ => True

/-! ## The handlers carry out their plans -/

/-- A run carries a plan out, and the plan is one that can be decided and that the fid it is issued on
permits. -/
structure Carries (s : Session) (tag : Tag) (issuer : Option Fid)
    (run : EStateM.Result (Abort SessionError) Session Unit) (plan : Plan) : Prop where
  performs : run = plan.perform tag s
  decided : Decided s plan
  permitted : plan.Permitted s issuer

/-- An operation that leaves its fid in use and names these handles. -/
structure Names (operation : FilesystemOperation) (objects : List ObjectHandle)
    (opens : List OpenHandle) (xattrs : List XattrHandle) : Prop where
  objects : objectsOf operation = objects
  opens : opensOf operation = opens
  xattrs : xattrsOf operation = xattrs
  keeps : releases operation = false
  quiet : yieldsHandle operation = false

variable {tag : Tag} {s : Session} {fid : Fid} {issuer : Option Fid} {object : ObjectFid}
  {run : EStateM.Result (Abort SessionError) Session Unit}

theorem carries_reply {body : ResponseBody} (h : run = queueResponse ⟨tag, body⟩ s) :
    Carries s tag issuer run (.reply body) :=
  ⟨h, .reply _, trivial⟩

theorem carries_withObject {serve : ObjectFid → Act Unit} {next : ObjectFid → Plan}
    (h : ∀ object, s.fids[fid]? = some (.object object) →
      Carries s tag issuer (serve object s) (next object)) :
    Carries s tag issuer (withObject tag fid serve s) (s.planObject fid next) := by
  unfold withObject planObject
  cases hfid : s.fids[fid]? with
  | none => exact carries_reply rfl
  | some state =>
    cases state with
    | object object => exact h object hfid
    | pending | auth => exact carries_reply rfl

theorem carries_withAuth {serve : Qid → AuthHandle → Act Unit} {next : Qid → AuthHandle → Plan}
    (h : ∀ qid handle, s.fids[fid]? = some (.auth qid handle) →
      Carries s tag issuer (serve qid handle s) (next qid handle)) :
    Carries s tag issuer (withAuth tag fid serve s) (s.planAuth fid next) := by
  unfold withAuth planAuth
  cases hfid : s.fids[fid]? with
  | none => exact carries_reply rfl
  | some state =>
    cases state with
    | auth qid handle => exact h qid handle hfid
    | pending | object => exact carries_reply rfl

/-- Declining a request is all that happens when nothing follows a declined lookup. -/
theorem decline_bind {α : Type} {none : α} {action : Act Unit} {next : α → Act Unit}
    (stop : next none = pure ()) :
    ((do action; return none : Act α) >>= next) s = action s := by
  show EStateM.bind (EStateM.bind action fun _ => EStateM.pure none) next s = _
  unfold EStateM.bind
  cases action s with
  | error e s' => rfl
  | ok u s' =>
    simp only [EStateM.pure, stop]
    rfl

/-- What follows an action depends on its run only. -/
theorem bind_of_run {α : Type} {action other : Act α} {next : α → Act Unit}
    (h : action s = other s) : (action >>= next) s = (other >>= next) s := by
  show EStateM.bind action next s = EStateM.bind other next s
  unfold EStateM.bind
  rw [h]

theorem carries_objectFid {next : Option ObjectFid → Act Unit} {plan : ObjectFid → Plan}
    (stop : next none = pure ())
    (h : ∀ object, s.fids[fid]? = some (.object object) → object.xattr = none →
      Carries s tag issuer (next (some object) s) (plan object)) :
    Carries s tag issuer ((objectFid tag fid >>= next) s) (s.planPlain fid plan) := by
  have hdecline : ∀ error, objectFid tag fid s =
      (do queueStateError tag error; return none : Act (Option ObjectFid)) s →
      Carries s tag issuer ((objectFid tag fid >>= next) s) (.refuse error) := by
    intro error hrun
    rw [bind_of_run hrun]
    exact carries_reply (decline_bind stop)
  unfold planPlain planObject
  cases hfid : s.fids[fid]? with
  | none =>
    apply hdecline
    simp only [objectFid, hfid]
  | some state =>
    cases state with
    | pending | auth =>
      apply hdecline
      simp only [objectFid, hfid]
    | object object =>
      by_cases hplain : object.xattr.isNone = true
      · have hfound : objectFid tag fid s = (pure (some object) : Act (Option ObjectFid)) s := by
          simp only [objectFid, hfid, hplain, if_true]
          rfl
        rw [bind_of_run hfound]
        simp only [hplain, if_true]
        exact h object hfid (Option.isNone_iff_eq_none.1 hplain)
      · simp only [hplain]
        apply hdecline
        simp only [objectFid, hfid, hplain]
        rfl

theorem carries_directoryFid {next : Option ObjectFid → Act Unit} {plan : ObjectFid → Plan}
    (stop : next none = pure ())
    (h : ∀ object, s.fids[fid]? = some (.object object) →
      Carries s tag issuer (next (some object) s) (plan object)) :
    Carries s tag issuer ((directoryFid tag fid >>= next) s) (s.planDirectory fid plan) := by
  unfold directoryFid
  rw [bind_assoc]
  refine carries_objectFid ?_ ?_
  · simp only [pure_bind, stop]
  · intro object hobject _
    simp only
    by_cases hdirectory : object.qid.hasType Qid.directory = true
    · simp only [hdirectory, if_true, pure_bind]
      exact h object hobject
    · simp only [hdirectory]
      exact carries_reply (decline_bind stop)

theorem undoing_id (action : Act Unit) : undoing action (fun s => s) s = action s := by
  unfold undoing
  cases action s with
  | error e s' => rfl
  | ok u s' => rfl

theorem emit_nothing (work : Work) (continuation : Continuation) (writeBytes : Nat) :
    work.emit tag continuation writeBytes s =
      (Plan.emit .nothing work continuation writeBytes).perform tag s :=
  (undoing_id _).symm

variable {operation : FilesystemOperation} {continuation : Continuation} {writeBytes : Nat}

section

variable (present : s.fids[fid]? = some (.object object))

include present

theorem carries_checked (free : continuation.owned = none)
    (h : object.capabilities.requireFor operation = .ok () →
      Decided s (.emit .nothing (.filesystem ⟨object.context, operation⟩) continuation writeBytes)) :
    Carries s tag (some fid)
      (emitFilesystemChecked tag object.context object.capabilities operation continuation
        writeBytes s)
      (object.planChecked .nothing operation continuation writeBytes) := by
  have hnothing : s.rollbackContinuation continuation = s := by
    cases continuation <;> first | rfl | cases free
  unfold emitFilesystemChecked ObjectFid.planChecked
  cases hpermitted : object.capabilities.requireFor operation with
  | error missing =>
    simp only [hnothing]
    exact carries_reply rfl
  | ok u =>
    refine ⟨emit_nothing (.filesystem ⟨object.context, operation⟩) continuation writeBytes,
      h hpermitted, ?_⟩
    exact ⟨fid, object, rfl, present, rfl, hpermitted⟩

theorem carries_onObject (free : continuation.owned = none)
    (names : Names operation [object.object] [] []) :
    Carries s tag (some fid)
      (emitFilesystemChecked tag object.context object.capabilities operation continuation
        writeBytes s)
      (object.planChecked .nothing operation continuation writeBytes) := by
  refine carries_checked present free fun hpermitted => ?_
  refine .operate present hpermitted ⟨?_, ?_, ?_⟩ names.keeps free names.quiet
  · simp [names.objects]
  · simp [names.opens]
  · simp [names.xattrs]

theorem carries_onOpen {handle : OpenHandle} (opened : object.openInstance = some handle)
    (free : continuation.owned = none) (names : Names operation [] [handle] []) :
    Carries s tag (some fid)
      (emitFilesystemChecked tag object.context object.capabilities operation continuation
        writeBytes s)
      (object.planChecked .nothing operation continuation writeBytes) := by
  refine carries_checked present free fun hpermitted => ?_
  refine .operate present hpermitted ⟨?_, ?_, ?_⟩ names.keeps free names.quiet
  · simp [names.objects]
  · simp [names.opens, opened]
  · simp [names.xattrs]

theorem carries_reserving
    (h : object.capabilities.requireFor operation = .ok () →
      Decided s (.emit (.take fid (.object object)) (.filesystem ⟨object.context, operation⟩) continuation writeBytes)) :
    Carries s tag (some fid) (emitReserving tag fid object operation continuation writeBytes s)
      (object.planReserving fid operation continuation writeBytes) := by
  unfold emitReserving ObjectFid.planReserving ObjectFid.planChecked
  cases hpermitted : object.capabilities.requireFor operation with
  | error missing => exact carries_reply rfl
  | ok u => exact ⟨rfl, h hpermitted, fid, object, rfl, present, rfl, hpermitted⟩

end

theorem carries_claimFid {work : Work} {next : Bool → Act Unit} (stop : next false = pure ())
    (h : next true = undoing (work.emit tag continuation 0) (·.retireFid fid))
    (decided : fid ∉ s.fids → Decided s (.emit (.claim fid) work continuation 0))
    (permitted : (Plan.emit (.claim fid) work continuation 0).Permitted s issuer) :
    Carries s tag issuer ((claimFid tag fid >>= next) s) (s.planClaim fid work continuation) := by
  unfold planClaim
  by_cases hfid : fid ∈ s.fids
  · have hdecline : claimFid tag fid s =
        (do queueStateError tag .duplicateFid; return false : Act Bool) s := by
      simp only [claimFid, hfid, if_true]
    rw [if_pos hfid, bind_of_run hdecline]
    exact carries_reply (decline_bind stop)
  · rw [if_neg hfid]
    refine ⟨?_, decided hfid, permitted⟩
    show EStateM.bind (claimFid tag fid) next s = _
    simp only [EStateM.bind, claimFid, hfid, if_false, Plan.perform, Reservation.reserve]
    cases Accounting.reserve s.accounting.fids 1 s.limits.maxFids .fids with
    | error e => rfl
    | ok total =>
      simp only [h]
      rfl

theorem carries_admit {request : PolicyRequest} (admits : AdmitsBy s fid request continuation) :
    Carries s tag issuer (claiming tag fid ((Work.policy request).emit tag continuation 0) s)
      (s.planClaim fid (.policy request) continuation) :=
  carries_claimFid rfl rfl (fun absent => .enrol absent admits) trivial

theorem carries_handleOpenFid {operation : OpenHandle → FilesystemOperation}
    (free : continuation.owned = none) (names : ∀ handle, Names (operation handle) [] [handle] []) :
    Carries s tag (some fid) (handleOpenFid tag fid operation continuation s)
      (s.planOpen fid operation continuation) := by
  refine carries_objectFid rfl fun object hobject _ => ?_
  cases hopen : object.openInstance with
  | none =>
    simp only [hopen]
    exact carries_reply rfl
  | some handle =>
    simp only [hopen]
    exact carries_onOpen hobject hopen free (names handle)

theorem carries_handleInDirectory {operation : ObjectHandle → FilesystemOperation}
    (free : continuation.owned = none) (names : ∀ handle, Names (operation handle) [handle] [] []) :
    Carries s tag (some fid) (handleInDirectory tag fid operation continuation s)
      (s.planInDirectory fid operation continuation) :=
  carries_directoryFid rfl fun _ hobject => carries_onObject hobject free (names _)

theorem carries_handleObject {operation : ObjectHandle → FilesystemOperation}
    (free : continuation.owned = none) (names : ∀ handle, Names (operation handle) [handle] [] []) :
    Carries s tag (some fid) (handleObject tag fid operation continuation s)
      (s.planOnObject fid operation continuation) :=
  carries_withObject fun _ hobject => carries_onObject hobject free (names _)

theorem unused_of_not (h : ¬ (object.openInstance.isSome || object.xattr.isSome) = true) :
    object.Unused := by
  rw [Bool.or_eq_true, not_or, Option.not_isSome_iff_eq_none, Option.not_isSome_iff_eq_none] at h
  exact ⟨h.1, h.2⟩

theorem carries_handleUnopened {operation : ObjectHandle → FilesystemOperation}
    {continuation : ObjectFid → Continuation}
    (h : ∀ object : ObjectFid, object.Unused →
      object.ChangesBy fid (operation object.object) (continuation object)) :
    Carries s tag (some fid) (handleUnopened tag fid operation continuation s)
      (s.planUnopened fid operation continuation) := by
  refine carries_withObject fun object hobject => ?_
  split
  · exact carries_reply rfl
  · rename_i hused
    exact carries_reserving hobject fun hpermitted =>
      .change hobject hpermitted (h object (unused_of_not hused))

theorem carries_pair {second : Fid} {other : ObjectFid}
    (present : s.fids[fid]? = some (.object object))
    (present' : s.fids[second]? = some (.object other))
    (operation : ObjectHandle → ObjectHandle → FilesystemOperation) {response : ResponseBody}
    (names : ∀ a b, Names (operation a b) [a, b] [] []) :
    Carries s tag (some fid)
      ((if object.context ≠ other.context then queueErrno tag .EXDEV
        else emitFilesystemChecked tag object.context object.capabilities
          (operation object.object other.object) (.noState response) 0 : Act Unit) s)
      (planPair object other operation response) := by
  unfold planPair
  split
  · exact carries_reply rfl
  · rename_i hshared
    obtain ⟨hobjects, hopens, hxattrs, hkeeps, hquiet⟩ := names object.object other.object
    exact carries_checked present rfl fun hpermitted => .pair present present' (not_not.1 hshared)
      hpermitted hobjects hopens hxattrs hkeeps hquiet

variable {offset : UInt64}

theorem carries_handleReaddir {count : UInt32} :
    Carries s tag (some fid) (handleReaddir tag fid offset count s)
      (s.planReaddir fid offset count) := by
  refine carries_withObject fun object hobject => ?_
  cases hopen : object.openInstance with
  | none => exact carries_reply rfl
  | some handle =>
    simp only
    split
    · exact carries_reply rfl
    · exact carries_onOpen hobject hopen rfl ⟨rfl, rfl, rfl, rfl, rfl⟩

theorem carries_handleObjectClunk :
    Carries s tag (some fid) (handleObjectClunk tag fid s) (s.planObjectClunk fid) := by
  refine carries_withObject fun object hobject => ?_
  have hrelease : Carries s tag (some fid)
      (emitReserving tag fid object
        (.release object.object object.openInstance object.xattrHandle) (.releaseFid fid) 0 s)
      (object.planReserving fid
        (.release object.object object.openInstance object.xattrHandle) (.releaseFid fid) 0) :=
    carries_reserving hobject fun hpermitted => .finish hobject hpermitted .released
  rcases hx : object.xattr with _ | ⟨handle, size | ⟨expectedSize, written⟩⟩
  · rw [ObjectFid.xattrHandle, hx] at hrelease
    exact hrelease
  · rw [ObjectFid.xattrHandle, hx] at hrelease
    exact hrelease
  · have hhandle : object.xattrHandle = some handle := by simp [ObjectFid.xattrHandle, hx]
    simp only
    split
    · exact carries_reserving hobject fun hpermitted => .finish hobject hpermitted (.committed hx)
    · refine carries_reserving hobject fun hpermitted => .finish hobject hpermitted ?_
      rw [← hhandle]
      exact .aborted

theorem carries_handleFileRead {count : UInt32} :
    Carries s tag (some fid) (handleFileRead tag fid offset count s)
      (s.planFileRead fid offset count) := by
  refine carries_withObject fun object hobject => ?_
  cases hx : object.xattr with
  | some xattr =>
    simp only [handleXattrRead]
    cases xattr.mode with
    | write expectedSize written => exact carries_reply rfl
    | read size =>
      simp only
      split
      · exact carries_reply rfl
      · refine carries_checked hobject rfl fun hpermitted =>
          .operate hobject hpermitted ⟨?_, ?_, ?_⟩ rfl rfl rfl
        · simp [objectsOf]
        · simp [opensOf]
        · simp [xattrsOf, ObjectFid.xattrHandle, hx]
  | none =>
    cases hopen : object.openInstance with
    | none => exact carries_reply rfl
    | some handle =>
      simp only
      split
      · exact carries_reply rfl
      · exact carries_onOpen hobject hopen rfl ⟨rfl, rfl, rfl, rfl, rfl⟩

theorem carries_handleFileWrite {data : Bytes} :
    Carries s tag (some fid) (handleFileWrite tag fid offset data s)
      (s.planFileWrite fid offset data) := by
  refine carries_withObject fun object hobject => ?_
  cases hx : object.xattr with
  | some xattr =>
    simp only [handleXattrWrite]
    cases xattr.mode with
    | read size => exact carries_reply rfl
    | write expectedSize written =>
      simp only
      cases checkedAdd offset (UInt64.ofNat data.length) with
      | none => exact carries_reply rfl
      | some finish =>
        simp only
        split
        · exact carries_reply rfl
        · exact carries_reserving hobject fun hpermitted =>
            .change hobject hpermitted (.xattrWritten hx)
  | none =>
    cases hopen : object.openInstance with
    | none => exact carries_reply rfl
    | some handle =>
      simp only
      split
      · exact carries_reply rfl
      · exact carries_onOpen hobject hopen rfl ⟨rfl, rfl, rfl, rfl, rfl⟩

variable {newFid : Fid}

theorem carries_cloneFid (present : s.fids[fid]? = some (.object object)) (unused : object.Unused) :
    Carries s tag issuer (cloneFid tag fid newFid object s)
      (if newFid = fid then Plan.reply (.walk [])
        else if newFid ∈ s.fids then .refuse .duplicateFid
        else .clone newFid object) := by
  unfold cloneFid
  by_cases hsame : newFid = fid
  · rw [if_neg (not_not.2 hsame), if_pos hsame]
    exact carries_reply rfl
  · rw [if_pos hsame, if_neg hsame]
    by_cases hfid : newFid ∈ s.fids
    · have hdecline : claimFid tag newFid s =
          (do queueStateError tag .duplicateFid; return false : Act Bool) s := by
        simp only [claimFid, hfid, if_true]
      rw [if_pos hfid, bind_of_run hdecline]
      exact carries_reply (decline_bind rfl)
    · rw [if_neg hfid]
      refine ⟨?_, .clone present unused hfid, trivial⟩
      show EStateM.bind (claimFid tag newFid) _ s = _
      simp only [EStateM.bind, claimFid, hfid, if_false, Plan.perform, Reservation.reserve]
      cases Accounting.reserve s.accounting.fids 1 s.limits.maxFids .fids with
      | error e => rfl
      | ok total => rfl

theorem carries_emitWalk {names : List Bytes} (present : s.fids[fid]? = some (.object object))
    (unused : object.Unused)
    (permitted : object.capabilities.requireFor (.walk object.object names) = .ok ()) :
    Carries s tag (some fid) (emitWalk tag fid newFid object names s)
      (if newFid = fid then
        .emit (.take fid (.object object)) (.filesystem ⟨object.context, .walk object.object names⟩)
          (.walk fid newFid object names.length) 0
      else s.planClaim newFid (.filesystem ⟨object.context, .walk object.object names⟩)
        (.walk fid newFid object names.length)) := by
  have hpermitted : ∀ reservation, (Plan.emit reservation
      (.filesystem ⟨object.context, .walk object.object names⟩)
      (.walk fid newFid object names.length) 0).Permitted s (some fid) := fun _ =>
    ⟨fid, object, rfl, present, rfl, permitted⟩
  unfold emitWalk
  by_cases hsame : newFid = fid
  · have hundo : (fun s : Session => s.rollbackWalk fid newFid object) =
        (·.setFid fid (.object object)) := by
      funext s
      rw [Session.rollbackWalk, if_pos hsame.symm]
    rw [if_pos hsame, if_pos hsame, hundo]
    refine ⟨rfl, ?_, hpermitted _⟩
    rw [hsame]
    exact .change present permitted (.walked unused)
  · have hundo : (fun s : Session => s.rollbackWalk fid newFid object) = (·.retireFid newFid) := by
      funext s
      rw [Session.rollbackWalk, if_neg (Ne.symm hsame)]
    rw [if_neg hsame, if_neg hsame, hundo]
    exact carries_claimFid rfl rfl
      (fun absent => .yield present absent permitted (.walked unused hsame)) (hpermitted _)

theorem carries_handleWalk {names : List Bytes} :
    Carries s tag (some fid) (handleWalk tag fid newFid names s) (s.planWalk fid newFid names) := by
  refine carries_withObject fun source hsource => ?_
  split
  · exact carries_reply rfl
  · rename_i hused
    split
    · exact carries_cloneFid hsource (unused_of_not hused)
    · cases hpermitted : source.capabilities.requireFor (.walk source.object names) with
      | error missing => exact carries_reply rfl
      | ok u => exact carries_emitWalk hsource (unused_of_not hused) hpermitted

theorem carries_handleXattrWalk {name : Bytes} :
    Carries s tag (some fid) (handleXattrWalk tag fid newFid name s)
      (s.planXattrWalk fid newFid name) := by
  unfold handleXattrWalk planXattrWalk
  split
  · exact carries_reply rfl
  · refine carries_objectFid rfl fun source hsource hplain => ?_
    simp only
    cases hpermitted : source.capabilities.requireFor (.xattrWalk source.object name) with
    | error missing => exact carries_reply rfl
    | ok u =>
      exact carries_claimFid rfl rfl
        (fun absent => .yield hsource absent hpermitted (.xattrWalked hplain))
        ⟨fid, source, rfl, hsource, rfl, hpermitted⟩

theorem carries_handleAttach {afid : Fid} {uname aname : Bytes} {nUname : UInt32} :
    Carries s tag issuer (handleAttach tag fid afid uname aname nUname s)
      (s.planAttach fid afid uname aname nUname) := by
  unfold handleAttach planAttach
  split
  · exact carries_reply rfl
  · split
    · exact carries_admit (.attach (by simp))
    · cases hafid : s.fids[afid]? with
      | none => exact carries_reply rfl
      | some state =>
        cases state with
        | auth qid handle =>
          refine carries_admit (.attach ?_)
          intro held hheld
          rw [Option.mem_some] at hheld
          exact ⟨afid, qid, hheld ▸ hafid⟩
        | pending | object => exact carries_reply rfl

/-- **A handler decides from the fids and then carries its decision out**, with the capabilities of
the fid that the request is issued on. -/
theorem carries_serve (tag : Tag) (s : Session) {body : RequestBody}
    (plain : ∀ oldTag, body ≠ .flush oldTag) (unversioned : ∀ m v, body ≠ .version m v) :
    Carries s tag (issuedOn body) (serve tag body s) (s.plan body) := by
  cases body with
  | version m v => exact absurd rfl (unversioned m v)
  | flush oldTag => exact absurd rfl (plain oldTag)
  | auth =>
    simp only [serve, Session.plan, handleAuth]
    split
    · exact carries_reply rfl
    · exact carries_admit .auth
  | attach => exact carries_handleAttach
  | read fid offset count =>
    simp only [serve, Session.plan]
    split
    · exact carries_withAuth fun _ handle hauth =>
        ⟨emit_nothing (.policy (.readAuth handle offset (s.readMaximum count))) _ 0,
          .authenticate hauth .read, trivial⟩
    · exact carries_handleFileRead
  | write fid offset data =>
    simp only [serve, Session.plan]
    split
    · exact carries_withAuth fun _ handle hauth =>
        ⟨emit_nothing (.policy (.writeAuth handle offset data)) _ _,
          .authenticate hauth .write, trivial⟩
    · exact carries_handleFileWrite
  | clunk fid =>
    simp only [serve, Session.plan]
    split
    · exact carries_withAuth fun _ _ hauth => ⟨rfl, .dismiss hauth, trivial⟩
    · exact carries_handleObjectClunk
  | lopen =>
    simp only [serve, Session.plan, issuedOn]
    exact carries_handleUnopened fun _ unused => .opened unused
  | lcreate =>
    simp only [serve, Session.plan, issuedOn]
    exact carries_handleUnopened fun _ unused => .created unused
  | statfs | getattr | setattr =>
    simp only [serve, Session.plan, issuedOn]
    exact carries_handleObject rfl fun _ => ⟨rfl, rfl, rfl, rfl, rfl⟩
  | readlink fid =>
    refine carries_withObject fun object hobject => ?_
    split
    · exact carries_reply rfl
    · exact carries_onObject hobject rfl ⟨rfl, rfl, rfl, rfl, rfl⟩
  | readdir => exact carries_handleReaddir
  | mkdir | mknod | symlink | unlinkAt =>
    simp only [serve, Session.plan, issuedOn]
    exact carries_handleInDirectory rfl fun _ => ⟨rfl, rfl, rfl, rfl, rfl⟩
  | link directory target name =>
    refine carries_directoryFid rfl fun first hfirst => ?_
    refine carries_objectFid rfl fun second hsecond _ => ?_
    exact carries_pair hfirst hsecond (.link · · name) fun _ _ => ⟨rfl, rfl, rfl, rfl, rfl⟩
  | rename fid directory name =>
    refine carries_objectFid rfl fun first hfirst _ => ?_
    refine carries_directoryFid rfl fun second hsecond => ?_
    exact carries_pair hfirst hsecond (.rename · · name) fun _ _ => ⟨rfl, rfl, rfl, rfl, rfl⟩
  | renameAt oldDirectory oldName newDirectory newName =>
    refine carries_directoryFid rfl fun first hfirst => ?_
    refine carries_directoryFid rfl fun second hsecond => ?_
    exact carries_pair hfirst hsecond (.renameAt · oldName · newName) fun _ _ => ⟨rfl, rfl, rfl, rfl, rfl⟩
  | xattrWalk => exact carries_handleXattrWalk
  | xattrCreate fid name size flags =>
    refine carries_objectFid rfl fun original horiginal hplain => ?_
    simp only
    split
    · exact carries_reply rfl
    · rename_i hopen
      refine carries_reserving horiginal fun hpermitted =>
        .change horiginal hpermitted (.xattrCreated ?_)
      exact ⟨Option.not_isSome_iff_eq_none.1 hopen, hplain⟩
  | fsync | lock | getlock =>
    simp only [serve, Session.plan, issuedOn]
    exact carries_handleOpenFid rfl fun _ => ⟨rfl, rfl, rfl, rfl, rfl⟩
  | walk => exact carries_handleWalk
  | remove fid =>
    refine carries_withObject fun object hobject => ?_
    split
    · exact carries_reply rfl
    · rename_i hplain
      have hnone := Option.not_isSome_iff_eq_none.1 hplain
      refine carries_reserving hobject fun hpermitted => .finish hobject hpermitted ?_
      rw [hnone]
      exact .removed hnone

/-- **Every plan is one of those `Decided` lists.** -/
theorem decided_plan (s : Session) (body : RequestBody) : Decided s (s.plan body) := by
  cases body with
  | version | flush => exact .reply _
  | _ => exact (carries_serve notag s (by simp) (by simp)).decided

end W9pt.Connection
