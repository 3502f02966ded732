import W9pt.State.Apply
import W9pt.State.Lease
import W9pt.Lib.Run

/-!
# The deterministic authority (`testing/memory.rs`)

One lock protects the whole authority, so each call is one step of a machine. The state carries the
shared manual clock (`clock.now` cannot fail: it fails only on a poisoned lock) and leaves out the
diagnostic trace, which no call reads.

`last_fencing_tokens` and `lease_operations` are association lists; an operation is recorded only
when it was absent, so the length of the list is the length of the Rust map.
-/

namespace W9pt.State

open Lib

/-! ## State -/

/-- Cause of a revision (change.rs:13). -/
inductive ChangeOrigin where
  | mutation (mutationId : MutationId)
  | lease (operationId : LeaseOperationId)
deriving DecidableEq

/-- All keys changed at one revision (change.rs:116). -/
structure ChangeEvent where
  filesystemId : FilesystemId
  revision : StateRevision
  origin : ChangeOrigin
  keys : List RecordKey
deriving DecidableEq

/-- Invalid change event, cursor or polling bound (change.rs:295). The aggregate key count does not
overflow: it is a sum of lengths of values in memory. -/
inductive InvalidChangeRequest where
  | zeroEvents
  | zeroKeys
  | emptyEvent
  | limit (error : StateLimitError)
  | keyOutsideFilesystem (key : RecordKey)
  | duplicateKey (key : RecordKey)
  | unorderedRevision (previous next : StateRevision)
  | invalidNextCursor (lastEvent next current : StateRevision)
  | eventOutsideFilesystem

/-- One iteration of the loop of `ChangeEvent::new`. -/
def checkEventKey (limits : StateLimits) (fs : FilesystemId) (unique : List RecordKey)
    (key : RecordKey) : Except InvalidChangeRequest (List RecordKey) := do
  ensure (key.filesystemId = fs) (.keyOutsideFilesystem key)
  ensure (key ∉ unique) (.duplicateKey key)
  mapErr .limit (key.validateAgainstLimits limits)
  return key :: unique

/-- change.rs:125. -/
def ChangeEvent.new (fs : FilesystemId) (revision : StateRevision) (origin : ChangeOrigin)
    (keys : List RecordKey) (limits : StateLimits) : Except InvalidChangeRequest ChangeEvent := do
  ensure (keys ≠ []) .emptyEvent
  mapErr .limit (requireAtMost .changeKeys keys.length limits.maxChangeKeys)
  let _ ← keys.foldlM (checkEventKey limits fs) []
  return ⟨fs, revision, origin, keys⟩

/-- One-shot failure of a commit (memory.rs:39). -/
inductive CommitFailureTiming where
  | beforePublication | afterPublication

/-- Retained lease-operation result (memory.rs:75). -/
inductive LeaseOperationResult where
  | acquire (fingerprint : RequestFingerprint) (outcome : AcquireLeaseOutcome)
  | renew (fingerprint : RequestFingerprint) (outcome : RenewLeaseOutcome)
  | release (fingerprint : RequestFingerprint) (outcome : ReleaseLeaseOutcome)

/-- `AuthorityState` (memory.rs:26) and the clock. -/
structure AuthorityState where
  revision : StateRevision
  records : RecordMap
  changes : List ChangeEvent
  oldestChangeCursor : StateRevision
  lastFencingTokens : List ((FilesystemId × WriterScopeId) × FencingToken)
  leaseOperations : List ((FilesystemId × LeaseOperationId) × LeaseOperationResult)
  commitFailures : List CommitFailureTiming
  clock : LeaseDeadline

/-- `MemoryAuthority::new` (memory.rs:100). -/
def AuthorityState.new (clock : LeaseDeadline) : AuthorityState where
  revision := .one _
  records := ∅
  changes := []
  oldestChangeCursor := .one _
  lastFencingTokens := []
  leaseOperations := []
  commitFailures := []
  clock := clock

/-- The topology and limits of `StateStoreContract` (contract.rs:68), and the digest function. -/
structure Contract where
  topology : WriterTopology
  limits : StateLimits
  blake3 : Bytes → Digest

/-- error.rs:5. -/
inductive StateStoreOperation where
  | read | commit | acquireLease | renewLease | releaseLease | pollChanges
deriving DecidableEq

/-- error.rs:22. -/
inductive AdapterFailureKind where
  | unavailable | timeout | serialization | corruption | unsupported | internal
deriving DecidableEq

structure MemoryStateStoreError where
  operation : StateStoreOperation
  kind : AdapterFailureKind
deriving DecidableEq

/-! ## Publication -/

/-- The `while` loop that bounds the retained history (`commit_request` and `publish_lease_revision`). -/
def compactChanges (maximum : Nat) : List ChangeEvent → StateRevision →
    List ChangeEvent × StateRevision
  | [], oldest => ([], oldest)
  | event :: rest, oldest =>
    if maximum < rest.length + 1 then compactChanges maximum rest event.revision
    else (event :: rest, oldest)

/-- The swap: records, revision and event become visible together (`commit_request`). -/
def AuthorityState.publish (s : AuthorityState) (limits : StateLimits) (records : RecordMap)
    (event : ChangeEvent) : AuthorityState :=
  let compacted := compactChanges limits.maxChangeHistoryCommits (s.changes ++ [event])
    s.oldestChangeCursor
  { s with
    records := records
    revision := event.revision
    changes := compacted.1
    oldestChangeCursor := compacted.2 }

/-- The record revision of a state revision (`to_record_revision`). -/
def Counter.toRecord (revision : StateRevision) : RecordRevision :=
  ⟨revision.get, revision.nonzero⟩

/-! ## Commits -/

/-- Why a commit is not published: the semantic outcomes other than `Committed` and `Ambiguous`, or
an infrastructure failure. -/
inductive Refusal where
  | alreadyCommitted (committed : CommittedMutation)
  | mutationMismatch (mismatch : MutationMismatch)
  | malformedRequest (error : MalformedCommit)
  | staleFence
  | expiredLease
  | conflict (reason : CommitConflict)
  | failure (kind : AdapterFailureKind)

/-- What the caller of a refused commit receives. -/
def Refusal.result : Refusal → Except MemoryStateStoreError CommitOutcome
  | alreadyCommitted committed => .ok (.alreadyCommitted committed)
  | mutationMismatch mismatch => .ok (.mutationMismatch mismatch)
  | malformedRequest error => .ok (.malformedRequest error)
  | staleFence => .ok .staleFence
  | expiredLease => .ok .expiredLease
  | conflict reason => .ok (.conflict reason)
  | failure kind => .error ⟨.commit, kind⟩

/-- Ledger-first lookup (`commit_request`). -/
def lookupLedger (records : RecordMap) (request : CommitRequest) : Except Refusal Unit :=
  match records[RecordKey.mutation request.filesystemId request.mutation.mutationId]? with
  | some (.mutation record) =>
    match request.mutation.classifyRecord record with
    | .exact committed => .error (.alreadyCommitted committed)
    | .mismatch mismatch => .error (.mutationMismatch mismatch)
    | .absent => .error (.mutationMismatch .mutationId)
  | _ => .ok ()

def currentLease (records : RecordMap) (fs : FilesystemId) (scope : WriterScopeId) :
    Option WriterLeaseRecord :=
  match records[RecordKey.writerLease fs scope]? with
  | some (.writerLease record) => some record
  | _ => none

/-- Scope and fence of the writer (`commit_request`). -/
def checkFence (contract : Contract) (s : AuthorityState) (request : CommitRequest) :
    Except Refusal Unit := do
  ensure (contract.topology ≠ .singleFencedWriter ∨ request.fence.scope = .filesystem)
    .staleFence
  match validateWriterFence request.filesystemId request.fence
      (currentLease s.records request.filesystemId request.fence.scope) s.clock with
  | .current => .ok ()
  | .stale => .error .staleFence
  | .expired => .error .expiredLease

/-- The preconditions (`commit_request`). -/
def checkPreconditions (records : RecordMap) (request : CommitRequest) : Except Refusal Unit :=
  match evaluatePreconditions records request with
  | some conflict => .error (.conflict conflict)
  | none => .ok ()

/-- The transition validators (`commit_request`). -/
def checkTransition (limits : StateLimits) (records : RecordMap) (request : CommitRequest) :
    Except MalformedCommit Unit := do
  validateDirectoryCookieTransition records request
  validateQidPathTransition records request
  validateMonotonicTransitions records request
  validateXattrTransitions records request limits

/-- How a failed change is reported (`commit_request`). -/
def ApplyFailure.refusal (request : CommitRequest) : ApplyFailure → Refusal
  | conflict kind => .conflict ⟨request.preconditions.length, kind⟩
  | malformed error => .malformedRequest error

/-- The loop over the changes on the staged copy (`commit_request`). -/
def stageChanges (limits : StateLimits) (request : CommitRequest) (revision : RecordRevision)
    (records : RecordMap) : Except ApplyFailure RecordMap :=
  request.changes.foldlM (fun staged change =>
    applyChange staged request.filesystemId request.mutation change revision limits) records

/-- `changed_keys` of `commit_request`: in order of first use. -/
def changedKeys (request : CommitRequest) : List RecordKey :=
  (request.changes.flatMap (·.affectedKeys request.filesystemId)).foldl
    (fun keys key => if key ∈ keys then keys else keys ++ [key]) []

/-- The ledger record of a commit (`commit_request`). -/
def CommitRequest.ledgerRecord (request : CommitRequest) (revision : StateRevision) :
    MutationRecord where
  filesystemId := request.filesystemId
  mutationId := request.mutation.mutationId
  fingerprint := request.mutation.fingerprint
  clientIncarnation := request.mutation.clientIncarnation
  writerScope := request.fence.scope
  writerIncarnation := request.fence.holder
  fencingToken := request.fence.fencingToken
  result := request.terminalResult
  committedRevision := revision
  retention := request.mutation.retention
  revision := revision.toRecord

/-- Everything before the publication (`commit_request`): the staged records and the event. -/
def stageCommit (contract : Contract) (s : AuthorityState) (request : CommitRequest) :
    Except Refusal (RecordMap × ChangeEvent) := do
  lookupLedger s.records request
  mapErr .malformedRequest (request.validatePreflight contract.limits)
  checkFence contract s request
  checkPreconditions s.records request
  mapErr .malformedRequest (checkTransition contract.limits s.records request)
  let next ← mapErr (fun _ => Refusal.failure .corruption) s.revision.checkedNext
  let staged ← mapErr (ApplyFailure.refusal request)
    (stageChanges contract.limits request next.toRecord s.records)
  mapErr (fun e => Refusal.malformedRequest (.invalidRecord e))
    (validateRecordSetWithLimits staged contract.limits)
  let ledgerKey := RecordKey.mutation request.filesystemId request.mutation.mutationId
  let event ← mapErr (fun _ => Refusal.failure .corruption)
    (ChangeEvent.new request.filesystemId next (.mutation request.mutation.mutationId)
      (changedKeys request ++ [ledgerKey]) contract.limits)
  return (staged.insert ledgerKey (.mutation (request.ledgerRecord next)), event)

/-- memory.rs:359. -/
def commitRequest (contract : Contract) (s : AuthorityState) (request : CommitRequest) :
    Except MemoryStateStoreError CommitOutcome × AuthorityState :=
  match stageCommit contract s request with
  | .error refusal => (refusal.result, s)
  | .ok (staged, event) =>
    match s.commitFailures with
    | .beforePublication :: rest => (.error ⟨.commit, .unavailable⟩, { s with commitFailures := rest })
    | .afterPublication :: rest =>
      (.ok (.ambiguous request.mutation),
        { s.publish contract.limits staged event with commitFailures := rest })
    | [] =>
      (.ok (.committed ⟨event.revision, request.terminalResult⟩),
        s.publish contract.limits staged event)

/-! ## Leases -/

/-- memory.rs:1051. -/
def AuthorityState.leaseHistoryFull (s : AuthorityState) (limits : StateLimits) : Bool :=
  limits.maxLeaseOperationHistory ≤ s.leaseOperations.length

/-- Retain the result of a lease operation. -/
def AuthorityState.recordLease (s : AuthorityState) (key : FilesystemId × LeaseOperationId)
    (result : LeaseOperationResult) : AuthorityState :=
  { s with leaseOperations := (key, result) :: s.leaseOperations }

/-- The next revision and the event of a lease change, or the failure of the call
(`next_authority_revision`, `lease_change_event`, memory.rs:1055-1100). -/
def leaseEvent (limits : StateLimits) (s : AuthorityState) (operation : StateStoreOperation)
    (fs : FilesystemId) (operationId : LeaseOperationId) (key : RecordKey) :
    Except MemoryStateStoreError ChangeEvent := do
  let next ← mapErr (fun _ => MemoryStateStoreError.mk operation .corruption) s.revision.checkedNext
  mapErr (fun _ => MemoryStateStoreError.mk operation .corruption)
    (ChangeEvent.new fs next (.lease operationId) [key] limits)

/-- The replayed outcome of an acquisition (`acquire_lease_request`). -/
def AcquireLeaseOutcome.replay : AcquireLeaseOutcome → AcquireLeaseOutcome
  | granted grant | alreadyApplied grant => .alreadyApplied grant
  | rejected rejection => .rejected rejection

def RenewLeaseOutcome.replay : RenewLeaseOutcome → RenewLeaseOutcome
  | renewed grant | alreadyApplied grant => .alreadyApplied grant
  | rejected rejection => .rejected rejection

def ReleaseLeaseOutcome.replay : ReleaseLeaseOutcome → ReleaseLeaseOutcome
  | released | alreadyApplied => .alreadyApplied
  | rejected rejection => .rejected rejection

/-- The retained outcome of the operation when its fingerprint matches. -/
def replayLease {α : Type} (retained : Option (RequestFingerprint × α))
    (fingerprint : RequestFingerprint) (replay : α → α) (mismatch : α) : α :=
  match retained with
  | some (fp, outcome) => if fp = fingerprint then replay outcome else mismatch
  | none => mismatch

def LeaseOperationResult.acquired : LeaseOperationResult →
    Option (RequestFingerprint × AcquireLeaseOutcome)
  | acquire fp outcome => some (fp, outcome)
  | _ => none

def LeaseOperationResult.renewal : LeaseOperationResult →
    Option (RequestFingerprint × RenewLeaseOutcome)
  | renew fp outcome => some (fp, outcome)
  | _ => none

def LeaseOperationResult.releasing : LeaseOperationResult →
    Option (RequestFingerprint × ReleaseLeaseOutcome)
  | release fp outcome => some (fp, outcome)
  | _ => none

section

variable (contract : Contract) (s : AuthorityState)

/-- `acquire_lease_request` (memory.rs:619). The next revision is allocated before the grant is
decided, so an exhausted revision fails the call even when the grant would be refused. -/
def acquireLeaseRequest (request : AcquireWriterLease) :
    Except MemoryStateStoreError AcquireLeaseOutcome × AuthorityState :=
  let fingerprint := request.operationFingerprint contract.blake3
  let operationKey := (request.filesystemId, request.operationId)
  match s.leaseOperations.lookup operationKey with
  | some result =>
    (.ok (replayLease result.acquired fingerprint (·.replay) (.rejected .operationMismatch)), s)
  | none =>
    if validateDuration request.duration contract.limits ≠ .ok () then
      (.ok (.rejected .invalidDuration), s)
    else if s.leaseHistoryFull contract.limits then (.ok (.rejected .operationHistoryFull), s)
    else
      let key := RecordKey.writerLease request.filesystemId request.scope
      match s.revision.checkedNext with
      | .error _ => (.error ⟨.acquireLease, .corruption⟩, s)
      | .ok next =>
        match grantWriterLease request (currentLease s.records request.filesystemId request.scope)
            (s.lastFencingTokens.lookup (request.filesystemId, request.scope)) s.clock
            contract.topology next.toRecord with
        | .error rejection =>
          (.ok (.rejected rejection),
            s.recordLease operationKey (.acquire fingerprint (.rejected rejection)))
        | .ok record =>
          match leaseEvent contract.limits s .acquireLease request.filesystemId
              request.operationId key with
          | .error e => (.error e, s)
          | .ok event =>
            let outcome := AcquireLeaseOutcome.granted (leaseGrant record)
            let published := s.publish contract.limits (s.records.insert key (.writerLease record))
              event
            (.ok outcome, { published with
              lastFencingTokens := ((request.filesystemId, request.scope), record.fencingToken) ::
                s.lastFencingTokens }.recordLease operationKey (.acquire fingerprint outcome))

/-- memory.rs:731. -/
def renewLeaseRequest (request : RenewWriterLease) :
    Except MemoryStateStoreError RenewLeaseOutcome × AuthorityState :=
  let fingerprint := request.operationFingerprint contract.blake3
  let operationKey := (request.filesystemId, request.operationId)
  match s.leaseOperations.lookup operationKey with
  | some result =>
    (.ok (replayLease result.renewal fingerprint (·.replay) (.rejected .operationMismatch)), s)
  | none =>
    if validateDuration request.duration contract.limits ≠ .ok () then
      (.ok (.rejected .invalidDuration), s)
    else if s.leaseHistoryFull contract.limits then (.ok (.rejected .operationHistoryFull), s)
    else
      let key := RecordKey.writerLease request.filesystemId request.fence.scope
      match s.revision.checkedNext with
      | .error _ => (.error ⟨.renewLease, .corruption⟩, s)
      | .ok next =>
        match renewCurrentLease request
            (currentLease s.records request.filesystemId request.fence.scope) s.clock
            contract.topology next.toRecord with
        | .error rejection =>
          (.ok (.rejected rejection),
            s.recordLease operationKey (.renew fingerprint (.rejected rejection)))
        | .ok record =>
          match leaseEvent contract.limits s .renewLease request.filesystemId request.operationId
              key with
          | .error e => (.error e, s)
          | .ok event =>
            let outcome := RenewLeaseOutcome.renewed (leaseGrant record)
            (.ok outcome, (s.publish contract.limits (s.records.insert key (.writerLease record))
              event).recordLease operationKey (.renew fingerprint outcome))

/-- `release_lease_request` (memory.rs:829): no duration to validate, and the revision is allocated
only for a valid release. -/
def releaseLeaseRequest (request : ReleaseWriterLease) :
    Except MemoryStateStoreError ReleaseLeaseOutcome × AuthorityState :=
  let fingerprint := request.operationFingerprint contract.blake3
  let operationKey := (request.filesystemId, request.operationId)
  match s.leaseOperations.lookup operationKey with
  | some result =>
    (.ok (replayLease result.releasing fingerprint (·.replay) (.rejected .operationMismatch)), s)
  | none =>
    if s.leaseHistoryFull contract.limits then (.ok (.rejected .operationHistoryFull), s)
    else
      let key := RecordKey.writerLease request.filesystemId request.fence.scope
      match validateLeaseRelease request.filesystemId request.fence
          (currentLease s.records request.filesystemId request.fence.scope) s.clock
          contract.topology with
      | .error rejection =>
        (.ok (.rejected rejection),
          s.recordLease operationKey (.release fingerprint (.rejected rejection)))
      | .ok () =>
        match leaseEvent contract.limits s .releaseLease request.filesystemId request.operationId
            key with
        | .error e => (.error e, s)
        | .ok event =>
          (.ok .released, (s.publish contract.limits (s.records.erase key) event).recordLease
            operationKey (.release fingerprint .released))

end

/-! ## The machine -/

inductive Call where
  | commit (request : CommitRequest)
  | acquire (request : AcquireWriterLease)
  | renew (request : RenewWriterLease)
  | release (request : ReleaseWriterLease)
  | injectCommitFailure (timing : CommitFailureTiming)
  | advance (ticks : UInt64)
  | advanceTo (deadline : LeaseDeadline)

inductive Reply where
  | commit (result : Except MemoryStateStoreError CommitOutcome)
  | acquire (result : Except MemoryStateStoreError AcquireLeaseOutcome)
  | renew (result : Except MemoryStateStoreError RenewLeaseOutcome)
  | release (result : Except MemoryStateStoreError ReleaseLeaseOutcome)
  | injected
  | advanced (result : Except ManualClockError LeaseDeadline)
  | advancedTo (result : Except ManualClockError Unit)

/-- `ManualLeaseClock::advance` (lease.rs:220). -/
def AuthorityState.advance (s : AuthorityState) (ticks : UInt64) :
    Except ManualClockError LeaseDeadline × AuthorityState :=
  match checkedAdd s.clock.ticks ticks with
  | some now => (.ok ⟨now⟩, { s with clock := ⟨now⟩ })
  | none => (.error .overflow, s)

/-- `ManualLeaseClock::advance_to` (lease.rs:227). -/
def AuthorityState.advanceTo (s : AuthorityState) (deadline : LeaseDeadline) :
    Except ManualClockError Unit × AuthorityState :=
  if deadline.ticks < s.clock.ticks then
    (.error (.wouldMoveBackward s.clock.ticks deadline.ticks), s)
  else (.ok (), { s with clock := deadline })

def authority (contract : Contract) (s : AuthorityState) : Call → Reply × AuthorityState
  | .commit request => (commitRequest contract s request).map .commit id
  | .acquire request => (acquireLeaseRequest contract s request).map .acquire id
  | .renew request => (renewLeaseRequest contract s request).map .renew id
  | .release request => (releaseLeaseRequest contract s request).map .release id
  | .injectCommitFailure timing =>
    (.injected, { s with commitFailures := s.commitFailures ++ [timing] })
  | .advance ticks => (s.advance ticks).map .advanced id
  | .advanceTo deadline => (s.advanceTo deadline).map .advancedTo id

/-! ## What a call can do -/

section Inversion

variable {contract : Contract} {s : AuthorityState} {request : CommitRequest}

def CommitRequest.ledgerKey (request : CommitRequest) : RecordKey :=
  .mutation request.filesystemId request.mutation.mutationId

/-- What a staged commit has passed, and what it stages. -/
structure Staged (contract : Contract) (s : AuthorityState) (request : CommitRequest)
    (staged : RecordMap) (event : ChangeEvent) : Prop where
  unrecorded : lookupLedger s.records request = .ok ()
  preflight : request.validatePreflight contract.limits = .ok ()
  fenced : checkFence contract s request = .ok ()
  observed : checkPreconditions s.records request = .ok ()
  transition : checkTransition contract.limits s.records request = .ok ()
  next : s.revision.checkedNext = .ok event.revision
  applied : ∃ base, stageChanges contract.limits request event.revision.toRecord s.records = .ok base ∧
    validateRecordSetWithLimits base contract.limits = .ok () ∧
    staged = base.insert request.ledgerKey (.mutation (request.ledgerRecord event.revision))
  recorded : ChangeEvent.new request.filesystemId event.revision
    (.mutation request.mutation.mutationId) (changedKeys request ++ [request.ledgerKey])
    contract.limits = .ok event

/-- What `ChangeEvent::new` checks of an event. -/
structure ChangeEvent.WellFormed (limits : StateLimits) (event : ChangeEvent) : Prop where
  bounded : event.keys.length ≤ limits.maxChangeKeys
  owned : ∀ key ∈ event.keys, key.filesystemId = event.filesystemId
  valid : ∀ key ∈ event.keys, key.validateAgainstLimits limits = .ok ()

variable {event : ChangeEvent} {fs : FilesystemId} {limits : StateLimits} {records : RecordMap}

section

variable {revision : StateRevision} {origin : ChangeOrigin} {keys : List RecordKey}
  (h : ChangeEvent.new fs revision origin keys limits = .ok event)

include h

theorem ChangeEvent.new_eq_ok :
    event = ⟨fs, revision, origin, keys⟩ ∧ event.WellFormed limits := by
  simp only [ChangeEvent.new, bind_eq_ok, mapErr_eq_ok, requireAtMost, ensure_eq_ok,
    pure_eq_ok] at h
  obtain ⟨_, -, _, hbounded, _, hkeys, rfl⟩ := h
  have hchecked : ∀ key ∈ keys, key.filesystemId = fs ∧ key.validateAgainstLimits limits = .ok () := by
    intro key hkey
    obtain ⟨_, _, hcheck⟩ := foldlM_ok_forall hkeys key hkey
    simp only [checkEventKey, bind_eq_ok, ensure_eq_ok, mapErr_eq_ok] at hcheck
    obtain ⟨_, hfs, _, -, _, hvalid, -⟩ := hcheck
    exact ⟨hfs, hvalid⟩
  exact ⟨rfl, hbounded, fun key hkey => (hchecked key hkey).1, fun key hkey => (hchecked key hkey).2⟩

theorem ChangeEvent.new_revision : event.revision = revision := by
  rw [(new_eq_ok h).1]

end

variable {staged : RecordMap}

theorem staged_of_stageCommit (h : stageCommit contract s request = .ok (staged, event)) :
    Staged contract s request staged event := by
  simp only [stageCommit, bind_eq_ok, mapErr_eq_ok, pure_eq_ok, Prod.mk.injEq] at h
  obtain ⟨_, hledger, _, hpre, _, hfence, _, hobs, _, htrans, next, hnext, base, hbase, _, hvalid, _,
    hevent, hstaged, rfl⟩ := h
  obtain rfl := ChangeEvent.new_revision hevent
  exact ⟨hledger, hpre, hfence, hobs, htrans, hnext, ⟨base, hbase, hvalid, hstaged.symm⟩, hevent⟩

def CommitRequest.writtenKeys (request : CommitRequest) : List RecordKey :=
  request.ledgerKey :: request.changes.flatMap (·.affectedKeys request.filesystemId)

variable {rev : RecordRevision}

/-- The changes already applied have stamped their own keys. -/
theorem stamps_applyChanges {mutation : MutationContext} {base : RecordMap}
    (changes : List StateChange)
    (h : changes.foldlM (fun staged change => applyChange staged fs mutation change rev limits) records
      = .ok base) : Stamps (changes.flatMap (·.affectedKeys fs)) rev records base := by
  induction changes generalizing records with
  | nil =>
    cases h
    exact Stamps.refl
  | cons change rest ih =>
    obtain ⟨mid, hmid, hrest⟩ := foldlM_cons_eq_ok.1 h
    rw [List.flatMap_cons]
    exact ((stamps_applyChange hmid).mono fun _ => List.mem_append_left _).trans
      ((ih hrest).mono fun _ => List.mem_append_right _)

theorem stamps_stageChanges {base : RecordMap}
    (h : stageChanges limits request rev records = .ok base) :
    Stamps (request.changes.flatMap (·.affectedKeys request.filesystemId)) rev records base :=
  stamps_applyChanges _ h

/-- A staged commit writes its keys at the new revision. -/
theorem Staged.stamps (h : Staged contract s request staged event) :
    Stamps request.writtenKeys event.revision.toRecord s.records staged := by
  obtain ⟨base, hbase, -, rfl⟩ := h.applied
  exact ((stamps_stageChanges hbase).mono fun _ => List.mem_cons_of_mem _).trans
    (Stamps.insert List.mem_cons_self rfl)

/-- A commit writes no ledger record but its own, and no lease. -/
theorem Staged.writtenKeys_storeOwned {key : RecordKey} (h : Staged contract s request staged event)
    (hk : key ∈ request.writtenKeys) :
    key = request.ledgerKey ∨ key.storeOwned = false := by
  rcases List.mem_cons.1 hk with hk | hk
  · exact .inl hk
  · obtain ⟨change, hchange, hkey⟩ := List.mem_flatMap.1 hk
    exact .inr (CommitRequest.affected_storeOwned h.preflight hchange hkey)

/-- The fields that clients can observe. -/
structure Unchanged (s s' : AuthorityState) : Prop where
  records : s'.records = s.records
  revision : s'.revision = s.revision
  changes : s'.changes = s.changes
  oldestChangeCursor : s'.oldestChangeCursor = s.oldestChangeCursor

theorem Unchanged.rfl : Unchanged s s := ⟨.refl _, .refl _, .refl _, .refl _⟩

/-- One published revision: the records are stamped with it and one event is appended. -/
structure Advances (limits : StateLimits) (s s' : AuthorityState) (event : ChangeEvent)
    (keys : List RecordKey) : Prop where
  next : s.revision.checkedNext = .ok event.revision
  revision : s'.revision = event.revision
  stamps : Stamps keys event.revision.toRecord s.records s'.records
  changes : (s'.changes, s'.oldestChangeCursor) =
    compactChanges limits.maxChangeHistoryCommits (s.changes ++ [event]) s.oldestChangeCursor

theorem advances_publish (limits : StateLimits)
    {keys : List RecordKey} (hnext : s.revision.checkedNext = .ok event.revision)
    (hstamps : Stamps keys event.revision.toRecord s.records records) :
    Advances limits s (s.publish limits records event) event keys :=
  ⟨hnext, rfl, hstamps, rfl⟩

/-- **A commit** either is published, with the outcome that says so, or leaves records, revision
and history alone. -/
theorem commitRequest_cases (contract : Contract) (s : AuthorityState) (request : CommitRequest) :
    (∃ staged event, Staged contract s request staged event ∧
      (commitRequest contract s request).2.records = staged ∧
      Advances contract.limits s (commitRequest contract s request).2 event request.writtenKeys ∧
      ((commitRequest contract s request).1 = .ok (.committed ⟨event.revision, request.terminalResult⟩) ∨
        (commitRequest contract s request).1 = .ok (.ambiguous request.mutation))) ∨
    (Unchanged s (commitRequest contract s request).2 ∧
      (∀ c, (commitRequest contract s request).1 ≠ .ok (.committed c)) ∧
      ∀ m, (commitRequest contract s request).1 ≠ .ok (.ambiguous m)) := by
  unfold commitRequest
  cases hstage : stageCommit contract s request with
  | error refusal =>
    refine .inr ⟨.rfl, fun c => ?_, fun m => ?_⟩ <;> cases refusal <;> simp [Refusal.result]
  | ok staging =>
    obtain ⟨staged, event⟩ := staging
    have hstaged := staged_of_stageCommit hstage
    have hadvances := advances_publish contract.limits hstaged.next hstaged.stamps
    cases hfailures : s.commitFailures with
    | nil => exact .inl ⟨staged, event, hstaged, rfl, hadvances, .inl rfl⟩
    | cons timing rest =>
      cases timing with
      | beforePublication => exact .inr ⟨⟨rfl, rfl, rfl, rfl⟩, by simp, by simp⟩
      | afterPublication =>
        refine .inl ⟨staged, event, hstaged, rfl, ?_, .inr rfl⟩
        exact ⟨hadvances.next, hadvances.revision, hadvances.stamps, hadvances.changes⟩

theorem leaseEvent_eq_ok {operation : StateStoreOperation}
    {operationId : LeaseOperationId} {key : RecordKey}
    (h : leaseEvent limits s operation fs operationId key = .ok event) :
    s.revision.checkedNext = .ok event.revision ∧ event.keys = [key] ∧ event.WellFormed limits := by
  simp only [leaseEvent, bind_eq_ok, mapErr_eq_ok] at h
  obtain ⟨next, hnext, hevent⟩ := h
  obtain ⟨rfl, hwell⟩ := ChangeEvent.new_eq_ok hevent
  exact ⟨hnext, rfl, hwell⟩

/-- A call that changed nothing observable, or published one revision that writes only leases. -/
def LeaseStep (limits : StateLimits) (s s' : AuthorityState) : Prop :=
  Unchanged s s' ∨ ∃ event, Advances limits s s' event event.keys ∧ event.WellFormed limits ∧
    (∀ key ∈ event.keys, key.family = .writerLease) ∧
    ∀ key ∈ event.keys, ∀ r, s'.records[key]? = some r → StateRecord.matchesKey key r = true

theorem leaseStep_rfl : LeaseStep limits s s := .inl .rfl

/-- The end of a lease operation: the lease record is written and the operation recorded. -/
theorem leaseStep_publish {operation : StateStoreOperation}
    {operationId : LeaseOperationId} {scope : WriterScopeId} {s' : AuthorityState}
    (hevent : leaseEvent limits s operation fs operationId (.writerLease fs scope) = .ok event)
    (hstamps : Stamps [.writerLease fs scope] event.revision.toRecord s.records records)
    (hkeyed : ∀ r, records[RecordKey.writerLease fs scope]? = some r →
      StateRecord.matchesKey (.writerLease fs scope) r = true)
    (hrecords : s'.records = records) (hrevision : s'.revision = event.revision)
    (hchanges : (s'.changes, s'.oldestChangeCursor) =
      compactChanges limits.maxChangeHistoryCommits (s.changes ++ [event]) s.oldestChangeCursor) :
    LeaseStep limits s s' := by
  obtain ⟨hnext, hkeys, hwell⟩ := leaseEvent_eq_ok hevent
  refine .inr ⟨event, ⟨hnext, hrevision, ?_, hchanges⟩, hwell, fun key hk => ?_, fun key hk => ?_⟩
  · rw [hkeys, hrecords]
    exact hstamps
  · rw [hkeys, List.mem_singleton] at hk
    rw [hk]
    rfl
  · rw [hkeys, List.mem_singleton] at hk
    rw [hk, hrecords]
    exact hkeyed

variable {record : WriterLeaseRecord}

theorem grantWriterLease_eq_ok {r : AcquireWriterLease} {current : Option WriterLeaseRecord}
    {last : Option FencingToken} {now : LeaseDeadline} {topology : WriterTopology}
    (h : grantWriterLease r current last now topology rev = .ok record) :
    record.revision = rev ∧ record.filesystemId = r.filesystemId ∧ record.scope = r.scope := by
  simp only [grantWriterLease, bind_eq_ok, pure_eq_ok] at h
  obtain ⟨_, -, _, -, _, -, _, -, rfl⟩ := h
  exact ⟨rfl, rfl, rfl⟩

theorem renewCurrentLease_eq_ok {r : RenewWriterLease} {current : Option WriterLeaseRecord}
    {now : LeaseDeadline} {topology : WriterTopology}
    (h : renewCurrentLease r current now topology rev = .ok record) :
    record.revision = rev ∧ record.filesystemId = r.filesystemId ∧
      record.scope = r.fence.scope := by
  simp only [renewCurrentLease, bind_eq_ok, pure_eq_ok] at h
  obtain ⟨_, -, _, -, rfl⟩ := h
  exact ⟨rfl, rfl, rfl⟩

/-- The lease record is granted or renewed at the next revision. -/
theorem leaseStep_write {operation : StateStoreOperation} {operationId : LeaseOperationId}
    {scope : WriterScopeId} {next : StateRevision} {s' : AuthorityState}
    (hevent : leaseEvent limits s operation fs operationId (.writerLease fs scope) = .ok event)
    (hnext : s.revision.checkedNext = .ok next)
    (hrecord : record.revision = next.toRecord ∧ record.filesystemId = fs ∧ record.scope = scope)
    (hrecords : s'.records = s.records.insert (.writerLease fs scope) (.writerLease record))
    (hrevision : s'.revision = event.revision)
    (hchanges : (s'.changes, s'.oldestChangeCursor) =
      compactChanges limits.maxChangeHistoryCommits (s.changes ++ [event]) s.oldestChangeCursor) :
    LeaseStep limits s s' := by
  obtain ⟨hrev, hfs, hscope⟩ := hrecord
  have hsame := Except.ok.inj (hnext.symm.trans (leaseEvent_eq_ok hevent).1)
  refine leaseStep_publish hevent (Stamps.insert List.mem_cons_self ?_) ?_ hrecords hrevision hchanges
  · rw [StateRecord.revision, hrev, hsame]
  · intro r hr
    rw [Std.ExtTreeMap.getElem?_insert_self] at hr
    cases hr
    simp [StateRecord.matchesKey, hfs, hscope]

theorem acquireLeaseRequest_step (contract : Contract) (s : AuthorityState)
    (r : AcquireWriterLease) : LeaseStep contract.limits s (acquireLeaseRequest contract s r).2 := by
  unfold acquireLeaseRequest
  dsimp only
  split
  · exact leaseStep_rfl
  split
  · exact leaseStep_rfl
  split
  · exact leaseStep_rfl
  split
  · exact leaseStep_rfl
  rename_i next hnext
  split
  · exact .inl ⟨rfl, rfl, rfl, rfl⟩
  rename_i record hrecord
  split
  · exact leaseStep_rfl
  rename_i event hevent
  exact leaseStep_write hevent hnext (grantWriterLease_eq_ok hrecord) rfl rfl rfl

theorem renewLeaseRequest_step (contract : Contract) (s : AuthorityState) (r : RenewWriterLease) :
    LeaseStep contract.limits s (renewLeaseRequest contract s r).2 := by
  unfold renewLeaseRequest
  dsimp only
  split
  · exact leaseStep_rfl
  split
  · exact leaseStep_rfl
  split
  · exact leaseStep_rfl
  split
  · exact leaseStep_rfl
  rename_i next hnext
  split
  · exact .inl ⟨rfl, rfl, rfl, rfl⟩
  rename_i record hrecord
  split
  · exact leaseStep_rfl
  rename_i event hevent
  exact leaseStep_write hevent hnext (renewCurrentLease_eq_ok hrecord) rfl rfl rfl

theorem releaseLeaseRequest_step (contract : Contract) (s : AuthorityState)
    (r : ReleaseWriterLease) : LeaseStep contract.limits s (releaseLeaseRequest contract s r).2 := by
  unfold releaseLeaseRequest
  dsimp only
  split
  · exact leaseStep_rfl
  split
  · exact leaseStep_rfl
  split
  · exact .inl ⟨rfl, rfl, rfl, rfl⟩
  split
  · exact leaseStep_rfl
  rename_i event hevent
  exact leaseStep_publish hevent (Stamps.erase List.mem_cons_self)
    (fun r hr => by rw [Std.ExtTreeMap.getElem?_erase_self] at hr; cases hr) rfl rfl rfl

/-- Every call but a commit is a lease step. -/
theorem authority_leaseStep (contract : Contract) (s : AuthorityState) {call : Call}
    (hcall : ∀ request, call ≠ .commit request) :
    LeaseStep contract.limits s (authority contract s call).2 := by
  cases call with
  | commit request => exact absurd rfl (hcall request)
  | acquire request => exact acquireLeaseRequest_step contract s request
  | renew request => exact renewLeaseRequest_step contract s request
  | release request => exact releaseLeaseRequest_step contract s request
  | injectCommitFailure timing => exact .inl ⟨rfl, rfl, rfl, rfl⟩
  | advance ticks =>
    simp only [authority, AuthorityState.advance]
    split <;> exact .inl ⟨rfl, rfl, rfl, rfl⟩
  | advanceTo deadline =>
    simp only [authority, AuthorityState.advanceTo]
    split <;> exact .inl ⟨rfl, rfl, rfl, rfl⟩

end Inversion

end W9pt.State
