import W9pt.State.Fencing

/-!
# Lease operations are idempotent

The outcome of an acquisition, a renewal or a release is retained under its filesystem and operation id
together with a digest of the operands. Every later call under that id is answered from what is retained.

| here | there |
|---|---|
| `LeaseRequest.answer` | the first `match` of the three requests |
| `LeaseRequest.hashed` | the string digested by `operation_fingerprint` (lease.rs:358, 430, 482) |
| `Handled` | what one of the three requests can do |
| `idempotent_trace` | all histories, whatever times the calls read |

Two refusals are not retained: a duration over the limit, and a full operation history. Their ids can
still be used by another operation, see `unretained_id_reused`.
-/

namespace W9pt.State

open Lib

/-! ## Requests -/

/-- A lease operation. -/
inductive LeaseRequest where
  | acquire (request : AcquireWriterLease)
  | renew (request : RenewWriterLease)
  | release (request : ReleaseWriterLease)

namespace LeaseRequest

def call : LeaseRequest → Call
  | acquire request => .acquire request
  | renew request => .renew request
  | release request => .release request

/-- What the outcome is retained under. -/
def key : LeaseRequest → FilesystemId × LeaseOperationId
  | acquire request => (request.filesystemId, request.operationId)
  | renew request => (request.filesystemId, request.operationId)
  | release request => (request.filesystemId, request.operationId)

def hashed : LeaseRequest → Bytes
  | acquire r => leaseString "acquire" [idBytes r.filesystemId, idBytes r.operationId, idBytes r.scope,
      idBytes r.holder, idBytes r.leaseId, beBytes 8 r.duration.ticks.toNat]
  | renew r => fenceString "renew" r.filesystemId r.operationId r.fence r.duration.ticks
  | release r => fenceString "release" r.filesystemId r.operationId r.fence 0
where
  leaseString (domain : String) (parts : List Bytes) : Bytes :=
    "w9pt-fs-state-lease-v1\x00".toUTF8.toList ++ domain.toUTF8.toList ++ parts.flatten
  fenceString (domain : String) (fs : FilesystemId) (operation : LeaseOperationId) (fence : WriterFence)
      (duration : UInt64) : Bytes :=
    leaseString domain [idBytes fs, idBytes operation, idBytes fence.scope, idBytes fence.holder,
      idBytes fence.leaseId, beBytes 8 fence.fencingToken.get.toNat, beBytes 8 duration.toNat]

def mismatch : LeaseRequest → Reply
  | acquire _ => .acquire (.ok (.rejected .operationMismatch))
  | renew _ => .renew (.ok (.rejected .operationMismatch))
  | release _ => .release (.ok (.rejected .operationMismatch))

/-- The answer to a request whose id has a retained result. -/
def answer (blake3 : Bytes → Digest) (result : LeaseOperationResult) : LeaseRequest → Reply
  | acquire r => .acquire (.ok (replayLease result.acquired (r.operationFingerprint blake3) (·.replay)
      (.rejected .operationMismatch)))
  | renew r => .renew (.ok (replayLease result.renewal (r.operationFingerprint blake3) (·.replay)
      (.rejected .operationMismatch)))
  | release r => .release (.ok (replayLease result.releasing (r.operationFingerprint blake3) (·.replay)
      (.rejected .operationMismatch)))

/-- The result is one of this request: of its kind and with its digest. -/
def Owns (blake3 : Bytes → Digest) : LeaseRequest → LeaseOperationResult → Prop
  | acquire r, .acquire fingerprint _ => fingerprint = r.operationFingerprint blake3
  | renew r, .renew fingerprint _ => fingerprint = r.operationFingerprint blake3
  | release r, .release fingerprint _ => fingerprint = r.operationFingerprint blake3
  | _, _ => False

/-- A refusal that is not retained, or a failure of the adapter. -/
def Unretained (limits : StateLimits) : LeaseRequest → Reply → Prop
  | acquire r, .acquire reply => (∃ e, reply = .error e) ∨ reply = .ok (.rejected .operationHistoryFull) ∨
      reply = .ok (.rejected .invalidDuration) ∧ validateDuration r.duration limits ≠ .ok ()
  | renew r, .renew reply => (∃ e, reply = .error e) ∨ reply = .ok (.rejected .operationHistoryFull) ∨
      reply = .ok (.rejected .invalidDuration) ∧ validateDuration r.duration limits ≠ .ok ()
  | release _, .release reply => (∃ e, reply = .error e) ∨ reply = .ok (.rejected .operationHistoryFull)
  | _, _ => False

end LeaseRequest

/-- The reply that reports a result the first time. -/
def LeaseOperationResult.reply : LeaseOperationResult → Reply
  | acquire _ outcome => .acquire (.ok outcome)
  | renew _ outcome => .renew (.ok outcome)
  | release _ outcome => .release (.ok outcome)

/-- The reply that reports it again: a grant is then reported as already applied. -/
def LeaseOperationResult.replayed : LeaseOperationResult → Reply
  | acquire _ outcome => .acquire (.ok outcome.replay)
  | renew _ outcome => .renew (.ok outcome.replay)
  | release _ outcome => .release (.ok outcome.replay)

/-! ## Digests -/

section Digests

theorem idBytes_delimited {kind : IdKind} : SelfDelimiting (@idBytes kind) :=
  selfDelimiting_be (fun id => id.bits.isLt) fun a b h => by
    cases a
    cases b
    exact congrArg _ (BitVec.eq_of_toNat_eq h)

theorem word_delimited : SelfDelimiting fun n : UInt64 => beBytes 8 n.toNat :=
  selfDelimiting_be UInt64.toNat_lt fun _ _ => UInt64.toNat_inj.1

theorem fenceString_inj {domain : String} {fs fs' : FilesystemId} {operation operation' : LeaseOperationId}
    {fence fence' : WriterFence} {duration duration' : UInt64}
    (h : LeaseRequest.hashed.fenceString domain fs operation fence duration =
      LeaseRequest.hashed.fenceString domain fs' operation' fence' duration') :
    fs = fs' ∧ operation = operation' ∧ fence = fence' ∧ duration = duration' := by
  have h := List.append_cancel_left h
  obtain ⟨hfs, h⟩ := idBytes_delimited h
  obtain ⟨hoperation, h⟩ := idBytes_delimited h
  obtain ⟨hscope, h⟩ := idBytes_delimited h
  obtain ⟨hholder, h⟩ := idBytes_delimited h
  obtain ⟨hlease, h⟩ := idBytes_delimited h
  obtain ⟨htoken, h⟩ := word_delimited h
  obtain ⟨hduration, -⟩ := word_delimited h
  refine ⟨hfs, hoperation, ?_, hduration⟩
  obtain ⟨scope, holder, lease, ⟨token, _⟩⟩ := fence
  obtain ⟨scope', holder', lease', ⟨token', _⟩⟩ := fence'
  cases hscope
  cases hholder
  cases hlease
  cases htoken
  rfl

/-- **Requests of one kind with one string are one request.** -/
theorem LeaseRequest.eq_of_hashed {blake3 : Bytes → Digest} {request request' : LeaseRequest}
    {result : LeaseOperationResult} (howns : request.Owns blake3 result)
    (howns' : request'.Owns blake3 result) (h : request.hashed = request'.hashed) :
    request = request' := by
  cases result with
  | acquire =>
    cases request with
    | acquire r =>
      cases request' with
      | acquire r' =>
        have h := List.append_cancel_left h
        obtain ⟨hfs, h⟩ := idBytes_delimited h
        obtain ⟨hoperation, h⟩ := idBytes_delimited h
        obtain ⟨hscope, h⟩ := idBytes_delimited h
        obtain ⟨hholder, h⟩ := idBytes_delimited h
        obtain ⟨hlease, h⟩ := idBytes_delimited h
        obtain ⟨hduration, -⟩ := word_delimited h
        obtain ⟨_, _, _, _, _, ⟨_, _⟩⟩ := r
        obtain ⟨_, _, _, _, _, ⟨_, _⟩⟩ := r'
        cases hfs
        cases hoperation
        cases hscope
        cases hholder
        cases hlease
        cases hduration
        rfl
      | _ => cases howns'
    | _ => cases howns
  | renew =>
    cases request with
    | renew r =>
      cases request' with
      | renew r' =>
        obtain ⟨hfs, hoperation, hfence, hduration⟩ := fenceString_inj h
        obtain ⟨_, _, _, ⟨_, _⟩⟩ := r
        obtain ⟨_, _, _, ⟨_, _⟩⟩ := r'
        cases hfs
        cases hoperation
        cases hfence
        cases hduration
        rfl
      | _ => cases howns'
    | _ => cases howns
  | release =>
    cases request with
    | release r =>
      cases request' with
      | release r' =>
        obtain ⟨hfs, hoperation, hfence, -⟩ := fenceString_inj h
        cases r
        cases r'
        cases hfs
        cases hoperation
        cases hfence
        rfl
      | _ => cases howns'
    | _ => cases howns

end Digests

/-! ## One call -/

/-- What a lease operation can do: answer from what is retained, refuse without a trace, or decide and
retain the outcome. -/
inductive Handled (contract : Contract) (s : AuthorityState) (request : LeaseRequest) :
    Reply × AuthorityState → Prop where
  | answered {result : LeaseOperationResult} (retained : s.leaseOperations.lookup request.key = some result) :
      Handled contract s request (request.answer contract.blake3 result, s)
  | refused {reply : Reply} (fresh : s.leaseOperations.lookup request.key = none)
      (unretained : request.Unretained contract.limits reply) : Handled contract s request (reply, s)
  | decided {result : LeaseOperationResult} {s' : AuthorityState}
      (fresh : s.leaseOperations.lookup request.key = none) (owns : request.Owns contract.blake3 result)
      (retains : s'.leaseOperations = (request.key, result) :: s.leaseOperations) :
      Handled contract s request (result.reply, s')

section Calls

variable (contract : Contract) (s : AuthorityState)

theorem handled_acquire (r : AcquireWriterLease) :
    Handled contract s (.acquire r) (authority contract s (.acquire r)) := by
  simp only [authority, acquireLeaseRequest]
  split
  · exact .answered ‹_›
  rename_i hfresh
  split
  · exact .refused hfresh (.inr (.inr ⟨rfl, ‹_›⟩))
  split
  · exact .refused hfresh (.inr (.inl rfl))
  split
  · exact .refused hfresh (.inl ⟨_, rfl⟩)
  split
  · exact @Handled.decided _ _ _ (.acquire _ _) _ hfresh rfl rfl
  split
  · exact .refused hfresh (.inl ⟨_, rfl⟩)
  · exact @Handled.decided _ _ _ (.acquire _ _) _ hfresh rfl rfl

theorem handled_renew (r : RenewWriterLease) :
    Handled contract s (.renew r) (authority contract s (.renew r)) := by
  simp only [authority, renewLeaseRequest]
  split
  · exact .answered ‹_›
  rename_i hfresh
  split
  · exact .refused hfresh (.inr (.inr ⟨rfl, ‹_›⟩))
  split
  · exact .refused hfresh (.inr (.inl rfl))
  split
  · exact .refused hfresh (.inl ⟨_, rfl⟩)
  split
  · exact @Handled.decided _ _ _ (.renew _ _) _ hfresh rfl rfl
  split
  · exact .refused hfresh (.inl ⟨_, rfl⟩)
  · exact @Handled.decided _ _ _ (.renew _ _) _ hfresh rfl rfl

theorem handled_release (r : ReleaseWriterLease) :
    Handled contract s (.release r) (authority contract s (.release r)) := by
  simp only [authority, releaseLeaseRequest]
  split
  · exact .answered ‹_›
  rename_i hfresh
  split
  · exact .refused hfresh (.inr rfl)
  split
  · exact @Handled.decided _ _ _ (.release _ _) _ hfresh rfl rfl
  split
  · exact .refused hfresh (.inl ⟨_, rfl⟩)
  · exact @Handled.decided _ _ _ (.release _ _) _ hfresh rfl rfl

theorem handled (request : LeaseRequest) :
    Handled contract s request (authority contract s request.call) := by
  cases request with
  | acquire r => exact handled_acquire contract s r
  | renew r => exact handled_renew contract s r
  | release r => exact handled_release contract s r

variable {contract s} {request request' : LeaseRequest} {result : LeaseOperationResult}

/-- **The answer to the same request is the retained outcome.** -/
theorem LeaseRequest.Owns.answer_self (h : request.Owns contract.blake3 result) :
    request.answer contract.blake3 result = result.replayed := by
  cases request <;> cases result <;> first
    | exact False.elim h
    | cases h; simp [answer, replayLease, LeaseOperationResult.acquired, LeaseOperationResult.renewal,
        LeaseOperationResult.releasing, LeaseOperationResult.replayed]

/-- **The answer to another request is a mismatch**, unless the digest takes it for the retained one. -/
theorem LeaseRequest.answer_of_not_owns (h : ¬ request.Owns contract.blake3 result) :
    request.answer contract.blake3 result = request.mismatch := by
  cases request <;> cases result <;> simp_all [answer, replayLease, mismatch, Owns,
    LeaseOperationResult.acquired, LeaseOperationResult.renewal, LeaseOperationResult.releasing]

/-- Both requests own a result only where the digest takes one for the other. -/
theorem LeaseRequest.Owns.digest_eq (h : request.Owns contract.blake3 result)
    (h' : request'.Owns contract.blake3 result) :
    contract.blake3 request.hashed = contract.blake3 request'.hashed := by
  cases result <;> cases request <;> cases request' <;> first
    | exact False.elim h
    | exact False.elim h'
    | exact congrArg RequestFingerprint.bytes (Eq.trans (Eq.symm h) h')

theorem retained_authority {key : FilesystemId × LeaseOperationId}
    (h : s.leaseOperations.lookup key = some result) (call : Call) :
    (authority contract s call).2.leaseOperations.lookup key = some result := by
  have hrequest : ∀ request : LeaseRequest,
      (authority contract s request.call).2.leaseOperations.lookup key = some result := by
    intro request
    have hhandled := handled contract s request
    generalize authority contract s request.call = outcome at hhandled ⊢
    cases hhandled with
    | answered _ => exact h
    | refused _ _ => exact h
    | decided fresh _ retains =>
      have hne : (key == request.key) = false := by
        rw [beq_eq_false_iff_ne]
        rintro rfl
        rw [h] at fresh
        cases fresh
      rw [retains, List.lookup_cons, hne]
      exact h
  cases call with
  | acquire r => exact hrequest (.acquire r)
  | renew r => exact hrequest (.renew r)
  | release r => exact hrequest (.release r)
  | commit r =>
    simp only [authority, Prod.map, commitRequest]
    split
    · exact h
    · split <;> exact h
  | injectCommitFailure timing => exact h
  | advance ticks =>
    simp only [authority, AuthorityState.advance]
    split <;> exact h
  | advanceTo deadline =>
    simp only [authority, AuthorityState.advanceTo]
    split <;> exact h

end Calls

/-! ## Histories -/

namespace ClockedStep

def Submits (step : ClockedStep) (request : LeaseRequest) : Prop := step.input.2 = request.call

def Idle (step : ClockedStep) : Prop := step.after = { step.before with clock := step.input.1 }

/-- The step is the one that decides the request and retains its outcome. -/
def Decides (step : ClockedStep) (request : LeaseRequest) (result : LeaseOperationResult) : Prop :=
  step.Submits request ∧ step.before.leaseOperations.lookup request.key = none ∧
    step.after.leaseOperations.lookup request.key = some result

/-- The step hands out a grant. -/
def HandsOut (step : ClockedStep) (fs : FilesystemId) (grant : WriterLeaseGrant) : Prop :=
  (∃ r, step.input.2 = .acquire r ∧ r.filesystemId = fs ∧ step.output = .acquire (.ok (.granted grant))) ∨
    ∃ r, step.input.2 = .renew r ∧ r.filesystemId = fs ∧ step.output = .renew (.ok (.renewed grant))

/-- The step ends a grant: it reads a time at its deadline or later, or releases it. -/
def Ends (step : ClockedStep) (fs : FilesystemId) (grant : WriterLeaseGrant) : Prop :=
  grant.deadline.ticks ≤ step.input.1.ticks ∨
    ∃ r, step.input.2 = .release r ∧ r.filesystemId = fs ∧ r.fence = grant.fence ∧
      step.output = .release (.ok .released)

end ClockedStep

/-- The grant was handed out and has not ended since. -/
def Live (fs : FilesystemId) (grant : WriterLeaseGrant) : List ClockedStep → Prop
  | [] => False
  | step :: later =>
    (step.HandsOut fs grant ∧ ∀ next ∈ later, ¬ next.Ends fs grant) ∨ Live fs grant later

/-- The guarantees of a history of lease operations. -/
structure Idempotent (contract : Contract) (steps : List ClockedStep) : Prop where
  /-- A decided request was answered with the outcome that is retained. -/
  reported : ∀ step ∈ steps, ∀ request result, step.Decides request result → step.output = result.reply
  /-- Repeated, it returns that outcome and changes nothing. -/
  repeated : steps.Pairwise fun a b => ∀ request result, a.Decides request result →
    b.Submits request → b.output = result.replayed ∧ b.Idle
  /-- Another request under its id is refused and changes nothing. -/
  refused : steps.Pairwise fun a b => ∀ request result request', a.Decides request result →
    b.Submits request' → request'.key = request.key → request' ≠ request →
    (contract.blake3 request'.hashed = contract.blake3 request.hashed → request'.hashed = request.hashed) →
    b.output = request'.mismatch ∧ b.Idle
  /-- What is not decided changes nothing. -/
  undecided : ∀ step ∈ steps, ∀ request, step.Submits request →
    step.before.leaseOperations.lookup request.key = none →
    (∃ result, step.Decides request result) ∨ request.Unretained contract.limits step.output ∧ step.Idle
  /-- At most one holder of a scope. -/
  holders : ∀ fs grant grant', Live fs grant steps → Live fs grant' steps →
    grant.fence.scope = grant'.fence.scope → grant.fence = grant'.fence

section Histories

variable (contract : Contract)

variable {call : LeaseDeadline × Call} {request : LeaseRequest}

theorem clocked_handled (s : AuthorityState) (h : call.2 = request.call) :
    Handled contract { s with clock := call.1 } request (clockedAuthority contract s call) := by
  rw [clockedAuthority, h]
  exact handled contract _ request

/-- What a decision leaves for every later state. -/
def LeavesResult (step : ClockedStep) (s : AuthorityState) : Prop :=
  ∀ request result, step.Decides request result →
    s.leaseOperations.lookup request.key = some result ∧ request.Owns contract.blake3 result

variable {s : AuthorityState}

/-- A decision is reported and its result is the request's own. -/
theorem decides_stepOf {result : LeaseOperationResult}
    (h : ClockedStep.Decides (stepOf (clockedAuthority contract) s call) request result) :
    (clockedAuthority contract s call).1 = result.reply ∧ request.Owns contract.blake3 result := by
  obtain ⟨hsubmits, hfresh, hretained⟩ := h
  have hhandled := clocked_handled contract s (show call.2 = request.call from hsubmits)
  dsimp only [stepOf] at hfresh hretained
  generalize clockedAuthority contract s call = outcome at hhandled hretained ⊢
  cases hhandled with
  | answered retained => rw [hfresh] at retained; cases retained
  | refused _ _ => rw [hfresh] at hretained; cases hretained
  | decided fresh owns retains =>
    rw [retains, List.lookup_cons, beq_self_eq_true] at hretained
    cases hretained
    exact ⟨rfl, owns⟩

theorem leavesResult_stepOf (s : AuthorityState) (call : LeaseDeadline × Call) (_ : True) :
    LeavesResult contract (stepOf (clockedAuthority contract) s call) (clockedAuthority contract s call).2 :=
  fun _ _ hdecides => ⟨hdecides.2.2, (decides_stepOf contract hdecides).2⟩

theorem LeavesResult.step {step : ClockedStep} (h : LeavesResult contract step s)
    (call : LeaseDeadline × Call) :
    LeavesResult contract step (clockedAuthority contract s call).2 :=
  fun request result hdecides =>
    ⟨@retained_authority contract { s with clock := call.1 } _ _ (h request result hdecides).1 call.2,
      (h request result hdecides).2⟩

/-- A request whose id has a retained result is answered from it. -/
theorem clocked_answered {result : LeaseOperationResult} (hsubmits : call.2 = request.call)
    (hretained : s.leaseOperations.lookup request.key = some result) :
    clockedAuthority contract s call =
      (request.answer contract.blake3 result, { s with clock := call.1 }) := by
  have hhandled := clocked_handled contract s hsubmits
  generalize clockedAuthority contract s call = outcome at hhandled ⊢
  cases hhandled with
  | answered retained =>
    rw [hretained] at retained
    cases retained
    rfl
  | refused fresh _ => rw [hretained] at fresh; cases fresh
  | decided fresh _ _ => rw [hretained] at fresh; cases fresh

/-! ## Holders -/

/-- The grant's lease is the current one of its scope, for at least as long as the grant says. -/
def Holds (s : AuthorityState) (fs : FilesystemId) (grant : WriterLeaseGrant) : Prop :=
  ∃ lease, currentLease s.records fs grant.fence.scope = some lease ∧ lease.fence = grant.fence ∧
    grant.deadline.ticks ≤ lease.deadline.ticks

variable {fs : FilesystemId}

theorem holds_of_insert {records : RecordMap} {record : WriterLeaseRecord}
    (h : s.records = records.insert (.writerLease fs record.scope) (.writerLease record)) :
    Holds s fs (leaseGrant record) :=
  ⟨record, by rw [h]; exact (currentLease_insert record).trans (if_pos ⟨rfl, rfl⟩), rfl, UInt64.le_refl _⟩

theorem grantWriterLease_scope {request : AcquireWriterLease} {current : Option WriterLeaseRecord}
    {last : Option FencingToken} {now : LeaseDeadline} {topology : WriterTopology}
    {revision : RecordRevision} {record : WriterLeaseRecord}
    (h : grantWriterLease request current last now topology revision = .ok record) :
    record.scope = request.scope ∧ ∀ lease ∈ current, lease.deadline.ticks ≤ now.ticks := by
  simp only [grantWriterLease, bind_eq_ok, pure_eq_ok] at h
  obtain ⟨_, -, _, hbusy, _, -, _, -, rfl⟩ := h
  refine ⟨rfl, fun lease hlease => ?_⟩
  rw [Option.mem_def.1 hlease] at hbusy
  exact ensure_eq_ok.1 hbusy

theorem holds_of_handsOut {grant : WriterLeaseGrant}
    (h : ClockedStep.HandsOut (stepOf (clockedAuthority contract) s call) fs grant) :
    Holds (clockedAuthority contract s call).2 fs grant := by
  have hchange := clocked_leaseChange contract s call
  rcases h with ⟨r, hcall, rfl, houtput⟩ | ⟨r, hcall, rfl, houtput⟩
  · dsimp only [stepOf] at hcall houtput
    rw [hcall] at hchange
    generalize clockedAuthority contract s call = result at hchange houtput ⊢
    cases hchange with
    | kept _ _ ungranted _ => exact absurd houtput (ungranted grant)
    | granted grants records _ =>
      cases houtput
      rw [← (grantWriterLease_scope grants).1] at records
      exact holds_of_insert records
  · dsimp only [stepOf] at hcall houtput
    rw [hcall] at hchange
    generalize clockedAuthority contract s call = result at hchange houtput ⊢
    cases hchange with
    | kept _ _ _ unrenewed => exact absurd houtput (unrenewed grant)
    | renewed renews records _ =>
      cases houtput
      rw [← congrArg WriterFence.scope (renewCurrentLease_fence renews)] at records
      exact holds_of_insert records

/-- A release that is reported released the current lease. -/
theorem current_of_released {r : ReleaseWriterLease}
    (h : (authority contract s (.release r)).1 = .release (.ok .released)) :
    ∃ lease, currentLease s.records r.filesystemId r.fence.scope = some lease ∧ lease.fence = r.fence := by
  simp only [authority, releaseLeaseRequest, Prod.map_fst] at h
  split at h
  · refine absurd (Except.ok.inj (Reply.release.inj h)) (replayLease_ne (fun outcome => ?_) (by simp))
    cases outcome <;> simp [ReleaseLeaseOutcome.replay]
  split at h
  · simp at h
  split at h
  · simp at h
  · exact validateLeaseRelease_current ‹_›

section

variable {s : AuthorityState} {fs : FilesystemId} {grant : WriterLeaseGrant} (h : Holds s fs grant)

include h

/-- **A held grant stays held** until it ends. -/
theorem Holds.step {call : LeaseDeadline × Call}
    (hends : ¬ ClockedStep.Ends (stepOf (clockedAuthority contract) s call) fs grant) :
    Holds (clockedAuthority contract s call).2 fs grant := by
  obtain ⟨lease, hlease, hfence, hdeadline⟩ := h
  simp only [ClockedStep.Ends, stepOf, not_or, UInt64.not_le, not_exists, not_and] at hends
  obtain ⟨hunexpired, hunreleased⟩ := hends
  have hchange := clocked_leaseChange contract s call
  have hreleased : ∀ r, call.2 = .release r → (clockedAuthority contract s call).1 =
      .release (.ok .released) → ¬ (r.filesystemId = fs ∧ r.fence.scope = grant.fence.scope) := by
    rintro r hcall houtput ⟨rfl, hscope⟩
    refine hunreleased r hcall rfl ?_ houtput
    rw [clockedAuthority, hcall] at houtput
    obtain ⟨lease', hlease', hfence'⟩ := current_of_released contract houtput
    rw [hscope] at hlease'
    obtain rfl : lease = lease' := Option.some.inj (hlease.symm.trans hlease')
    exact hfence'.symm.trans hfence
  generalize hresult : clockedAuthority contract s call = result at hchange hreleased ⊢
  generalize hinput : call.2 = input at hchange hreleased
  cases hchange with
  | kept leases _ _ _ => exact ⟨lease, (leases _ _).trans hlease, hfence, hdeadline⟩
  | granted grants records _ =>
    refine ⟨lease, ?_, hfence, hdeadline⟩
    rw [records, currentLease_insert, if_neg]
    · exact hlease
    · -- the lease of the grant keeps its scope busy
      rintro ⟨rfl, hscope⟩
      have hbusy := (grantWriterLease_scope grants).2 lease (hscope ▸ hlease)
      exact UInt64.lt_irrefl _ (UInt64.lt_of_lt_of_le hunexpired (UInt64.le_trans hdeadline hbusy))
  | @renewed r _ record _ renews records _ =>
    obtain ⟨old, hold, hextends⟩ := renewCurrentLease_extends renews
    by_cases hsame : r.filesystemId = fs ∧ r.fence.scope = grant.fence.scope
    · obtain ⟨rfl, hscope⟩ := hsame
      rw [hscope] at hold
      obtain rfl : lease = old := Option.some.inj (hlease.symm.trans hold)
      refine ⟨record, ?_, hextends.1.trans hfence, UInt64.le_trans hdeadline hextends.2⟩
      rw [records, currentLease_insert, if_pos ⟨rfl, hscope⟩]
    · refine ⟨lease, ?_, hfence, hdeadline⟩
      rw [records, currentLease_insert, if_neg hsame]
      exact hlease
  | released records _ =>
    refine ⟨lease, ?_, hfence, hdeadline⟩
    rw [records, currentLease_erase, if_neg (hreleased _ rfl rfl)]
    exact hlease

theorem Holds.run (history : List (LeaseDeadline × Call))
    (hends : ∀ step ∈ trace (clockedAuthority contract) s history, ¬ ClockedStep.Ends step fs grant) :
    Holds (finalState (clockedAuthority contract) s history) fs grant := by
  induction history generalizing s with
  | nil => exact h
  | cons call history ih =>
    exact ih (h.step contract (hends _ List.mem_cons_self)) fun step hstep =>
      hends step (List.mem_cons_of_mem _ hstep)

end

/-- A live grant is held at the end of the history. -/
theorem holds_of_live {grant : WriterLeaseGrant} (history : List (LeaseDeadline × Call))
    (h : Live fs grant (trace (clockedAuthority contract) s history)) :
    Holds (finalState (clockedAuthority contract) s history) fs grant := by
  induction history generalizing s with
  | nil => cases h
  | cons call history ih =>
    rcases h with ⟨hhands, hends⟩ | hlater
    · exact (holds_of_handsOut contract hhands).run contract history hends
    · exact ih hlater

/-- **Lease operations are idempotent** in every history, whatever times the calls read: a decided
operation keeps its outcome, its id is closed to other operands, and a scope has at most one holder. -/
theorem idempotent_trace (clock : LeaseDeadline) (history : List (LeaseDeadline × Call)) :
    Idempotent contract (trace (clockedAuthority contract) (.new clock) history) where
  reported := by
    refine trace_forall (P := fun _ => True) (fun _ _ => id) ?_ trivial history
    rintro s call - request result hdecides
    exact (decides_stepOf contract hdecides).1
  repeated := by
    refine trace_pairwise (I := fun _ => True) (P := LeavesResult contract) (fun _ _ => id)
      (leavesResult_stepOf contract) (fun _ _ call _ h => h.step contract call) ?_ trivial history
    intro a s call _ hleaves request result hdecides hsubmits
    obtain ⟨hretained, howns⟩ := hleaves request result hdecides
    have hanswered := clocked_answered contract (show call.2 = request.call from hsubmits) hretained
    exact ⟨(congrArg Prod.fst hanswered).trans howns.answer_self, congrArg Prod.snd hanswered⟩
  refused := by
    refine trace_pairwise (I := fun _ => True) (P := LeavesResult contract) (fun _ _ => id)
      (leavesResult_stepOf contract) (fun _ _ call _ h => h.step contract call) ?_ trivial history
    intro a s call _ hleaves request result request' hdecides hsubmits hkey hne hapart
    obtain ⟨hretained, howns⟩ := hleaves request result hdecides
    rw [← hkey] at hretained
    have hanswered := clocked_answered contract (show call.2 = request'.call from hsubmits) hretained
    have hforeign : ¬ request'.Owns contract.blake3 result := fun howns' =>
      hne (LeaseRequest.eq_of_hashed howns' howns (hapart (howns'.digest_eq howns)))
    exact ⟨(congrArg Prod.fst hanswered).trans (LeaseRequest.answer_of_not_owns hforeign),
      congrArg Prod.snd hanswered⟩
  undecided := by
    refine trace_forall (P := fun _ => True) (fun _ _ => id) ?_ trivial history
    intro s call _ request hsubmits hfresh
    have hhandled := clocked_handled contract s (show call.2 = request.call from hsubmits)
    have hbefore : s.leaseOperations.lookup request.key = none := hfresh
    simp only [ClockedStep.Decides, ClockedStep.Idle, stepOf]
    generalize clockedAuthority contract s call = outcome at hhandled ⊢
    cases hhandled with
    | answered retained => rw [hbefore] at retained; cases retained
    | refused _ unretained => exact .inr ⟨unretained, rfl⟩
    | @decided result _ _ _ retains =>
      refine .inl ⟨result, hsubmits, hbefore, ?_⟩
      rw [retains, List.lookup_cons, beq_self_eq_true]
  holders := by
    intro fs grant grant' hlive hlive' hscope
    obtain ⟨lease, hlease, hfence, -⟩ := holds_of_live contract history hlive
    obtain ⟨lease', hlease', hfence', -⟩ := holds_of_live contract history hlive'
    rw [hscope] at hlease
    obtain rfl : lease = lease' := Option.some.inj (hlease.symm.trans hlease')
    exact hfence.symm.trans hfence'

/-- An acquisition that asks for a duration, with the other operands fixed. -/
def acquisitionFor (duration : LeaseDuration) : AcquireWriterLease :=
  ⟨⟨1⟩, ⟨1⟩, .filesystem, ⟨1⟩, ⟨1⟩, duration⟩

/-- **An id can be used again after a duration over the limit**: the refusal is not retained, and the same
id with other operands is granted a lease. -/
theorem unretained_id_reused :
    (trace (clockedAuthority ⟨.singleFencedWriter, .default, fun _ => 0⟩) (.new ⟨0⟩)
      [(⟨0⟩, (LeaseRequest.acquire (acquisitionFor ⟨86400000000001, by decide⟩)).call),
        (⟨0⟩, (LeaseRequest.acquire (acquisitionFor ⟨100, by decide⟩)).call)]).map (·.output) =
    [.acquire (.ok (.rejected .invalidDuration)),
      .acquire (.ok (.granted ⟨⟨.filesystem, ⟨1⟩, ⟨1⟩, .one _⟩, ⟨100⟩⟩))] := by
  rfl

end Histories

end W9pt.State
