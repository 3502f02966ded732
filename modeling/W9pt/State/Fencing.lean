import W9pt.State.ExactlyOnce

/-!
# Writer fencing over whole histories (`lease.rs:54-170`, `testing/memory.rs:413-443`, `:619-918`)

The authority reads its clock once in each call. `clockedAuthority` takes that reading with the call,
so consecutive calls may read any times, earlier ones included; the manual clock of the repository is
one of these clocks.

| here | there |
|---|---|
| `grantWriterLease_token` | the token of a grant exceeds the current and the last granted one |
| `LeaseChange` | what one call can do to the leases and the token history |
| `Tracked` | a current lease carries the last granted token of its scope |
| `fenced_trace` | the three fencing guarantees over every history |
-/

namespace W9pt.State

open Lib

/-! ## One transition -/

def WriterLeaseRecord.fence (record : WriterLeaseRecord) : WriterFence :=
  ⟨record.scope, record.holder, record.leaseId, record.fencingToken⟩

/-- A token is exceeded by every token granted after it. -/
def FencingToken.Below (last : Option FencingToken) (token : FencingToken) : Prop :=
  ∀ t ∈ last, t.get < token.get

variable {last : Option FencingToken}

theorem nextFencingToken_below {token : FencingToken} (h : nextFencingToken last = .ok token) :
    FencingToken.Below last token := by
  intro t ht
  cases ht
  have hnext := Counter.checkedNext_eq_ok.1 h
  exact UInt64.lt_iff_toNat_lt.2 (by omega)

theorem below_latestToken {current : Option FencingToken} {token : FencingToken}
    (h : FencingToken.Below (latestToken current last) token) :
    FencingToken.Below current token ∧ FencingToken.Below last token := by
  cases current with
  | none => exact ⟨by rintro t ⟨⟩, h⟩
  | some a =>
    cases last with
    | none => exact ⟨h, by rintro t ⟨⟩⟩
    | some b =>
      simp only [latestToken] at h
      split at h
      · rename_i hle
        refine ⟨?_, h⟩
        rintro t ⟨⟩
        exact UInt64.lt_of_le_of_lt hle (h b rfl)
      · rename_i hlt
        refine ⟨h, ?_⟩
        rintro t ⟨⟩
        exact UInt64.lt_trans (UInt64.not_le.1 hlt) (h a rfl)

variable {current : Option WriterLeaseRecord} {now : LeaseDeadline} {topology : WriterTopology}

theorem grantWriterLease_token {request : AcquireWriterLease} {revision : RecordRevision}
    {record : WriterLeaseRecord}
    (h : grantWriterLease request current last now topology revision = .ok record) :
    FencingToken.Below last record.fencingToken := by
  simp only [grantWriterLease, bind_eq_ok, mapErr_eq_ok, pure_eq_ok] at h
  obtain ⟨_, -, _, -, token, htoken, _, -, rfl⟩ := h
  exact (below_latestToken (nextFencingToken_below htoken)).2

theorem validateWriterFence_current {fs : FilesystemId} {presented : WriterFence}
    (h : validateWriterFence fs presented current now = .current) :
    ∃ lease, current = some lease ∧ lease.fence = presented := by
  cases current with
  | none => cases h
  | some lease =>
    refine ⟨lease, rfl, ?_⟩
    simp only [validateWriterFence] at h
    split at h
    · cases h
    · rename_i hsame
      push Not at hsame
      obtain ⟨-, hscope, hholder, hlease, htoken⟩ := hsame
      cases presented
      simp_all [WriterLeaseRecord.fence]

theorem validateLeaseRelease_current {fs : FilesystemId} {fence : WriterFence}
    (h : validateLeaseRelease fs fence current now topology = .ok ()) :
    ∃ lease, current = some lease ∧ lease.fence = fence := by
  simp only [validateLeaseRelease, bind_eq_ok] at h
  obtain ⟨_, -, h⟩ := h
  split at h
  · exact validateWriterFence_current ‹_›
  · cases h
  · cases h

/-- The later lease continues the earlier one: same fence, no earlier deadline. -/
def WriterLeaseRecord.Extends (lease lease' : WriterLeaseRecord) : Prop :=
  lease'.fence = lease.fence ∧ lease.deadline.ticks ≤ lease'.deadline.ticks

section

variable {request : RenewWriterLease} {revision : RecordRevision} {record : WriterLeaseRecord}
  (h : renewCurrentLease request current now topology revision = .ok record)

include h

theorem renewCurrentLease_extends :
    ∃ lease, current = some lease ∧ lease.Extends record := by
  simp only [renewCurrentLease, bind_eq_ok, mapErr_eq_ok, pure_eq_ok] at h
  obtain ⟨_, hvalid, requested, -, rfl⟩ := h
  obtain ⟨lease, rfl, hfence⟩ := validateLeaseRelease_current hvalid
  refine ⟨lease, rfl, hfence.symm ▸ rfl, ?_⟩
  show lease.deadline.ticks ≤ (if requested.ticks ≤ lease.deadline.ticks then lease.deadline
    else requested).ticks
  split
  · exact UInt64.le_refl _
  · rename_i hlater
    exact UInt64.le_of_lt (UInt64.not_le.1 hlater)

theorem renewCurrentLease_fence :
    (leaseGrant record).fence = request.fence := by
  simp only [renewCurrentLease, bind_eq_ok, pure_eq_ok] at h
  obtain ⟨_, -, _, -, rfl⟩ := h
  rfl

end

/-! ## Leases in the record set -/

section Leases

variable {records : RecordMap} {fs fs' : FilesystemId} {scope scope' : WriterScopeId}

theorem currentLease_of_getElem? {records' : RecordMap}
    (h : records'[RecordKey.writerLease fs scope]? = records[RecordKey.writerLease fs scope]?) :
    currentLease records' fs scope = currentLease records fs scope := by
  rw [currentLease, currentLease, h]

theorem currentLease_insert (record : WriterLeaseRecord) :
    currentLease (records.insert (.writerLease fs scope) (.writerLease record)) fs' scope' =
      if fs = fs' ∧ scope = scope' then some record else currentLease records fs' scope' := by
  simp only [currentLease, Std.ExtTreeMap.getElem?_insert, Std.compare_eq_iff_eq,
    RecordKey.writerLease.injEq]
  by_cases h : fs = fs' ∧ scope = scope'
  · simp only [if_pos h]
  · simp only [if_neg h]

theorem currentLease_erase :
    currentLease (records.erase (.writerLease fs scope)) fs' scope' =
      if fs = fs' ∧ scope = scope' then none else currentLease records fs' scope' := by
  simp only [currentLease, Std.ExtTreeMap.getElem?_erase, Std.compare_eq_iff_eq,
    RecordKey.writerLease.injEq]
  by_cases h : fs = fs' ∧ scope = scope'
  · simp only [if_pos h]
  · simp only [if_neg h]

end Leases

/-! ## What a call does to leases -/

/-- A call keeps all leases, or grants, renews or releases one. -/
inductive LeaseChange (contract : Contract) (s : AuthorityState) :
    Call → Reply × AuthorityState → Prop where
  | kept {call : Call} {reply : Reply} {s' : AuthorityState}
      (leases : ∀ fs scope, currentLease s'.records fs scope = currentLease s.records fs scope)
      (tokens : s'.lastFencingTokens = s.lastFencingTokens)
      (ungranted : ∀ grant, reply ≠ .acquire (.ok (.granted grant)))
      (unrenewed : ∀ grant, reply ≠ .renew (.ok (.renewed grant))) :
      LeaseChange contract s call (reply, s')
  | granted {request : AcquireWriterLease} {revision : RecordRevision} {record : WriterLeaseRecord}
      {s' : AuthorityState}
      (grants : grantWriterLease request (currentLease s.records request.filesystemId request.scope)
        (s.lastFencingTokens.lookup (request.filesystemId, request.scope)) s.clock contract.topology
        revision = .ok record)
      (records : s'.records =
        s.records.insert (.writerLease request.filesystemId request.scope) (.writerLease record))
      (tokens : s'.lastFencingTokens =
        ((request.filesystemId, request.scope), record.fencingToken) :: s.lastFencingTokens) :
      LeaseChange contract s (.acquire request)
        (.acquire (.ok (.granted (leaseGrant record))), s')
  | renewed {request : RenewWriterLease} {revision : RecordRevision} {record : WriterLeaseRecord}
      {s' : AuthorityState}
      (renews : renewCurrentLease request
        (currentLease s.records request.filesystemId request.fence.scope) s.clock contract.topology
        revision = .ok record)
      (records : s'.records = s.records.insert
        (.writerLease request.filesystemId request.fence.scope) (.writerLease record))
      (tokens : s'.lastFencingTokens = s.lastFencingTokens) :
      LeaseChange contract s (.renew request) (.renew (.ok (.renewed (leaseGrant record))), s')
  | released {request : ReleaseWriterLease} {s' : AuthorityState}
      (records : s'.records =
        s.records.erase (.writerLease request.filesystemId request.fence.scope))
      (tokens : s'.lastFencingTokens = s.lastFencingTokens) :
      LeaseChange contract s (.release request) (.release (.ok .released), s')

section Changes

variable (contract : Contract) (s : AuthorityState)

theorem replayLease_ne {α : Type} {retained : Option (RequestFingerprint × α)}
    {fingerprint : RequestFingerprint} {replay : α → α} {mismatch a : α}
    (hreplay : ∀ outcome, replay outcome ≠ a) (hmismatch : mismatch ≠ a) :
    replayLease retained fingerprint replay mismatch ≠ a := by
  unfold replayLease
  split
  · split
    · exact hreplay _
    · exact hmismatch
  · exact hmismatch

theorem acquire_leaseChange (request : AcquireWriterLease) :
    LeaseChange contract s (.acquire request) (authority contract s (.acquire request)) := by
  simp only [authority, acquireLeaseRequest]
  split
  · refine .kept (fun _ _ => rfl) rfl (fun grant h => ?_) (by simp)
    -- a replay reports the grant of an earlier call
    refine replayLease_ne (fun outcome => ?_) (by simp) (Except.ok.inj (Reply.acquire.inj h))
    cases outcome <;> simp [AcquireLeaseOutcome.replay]
  split
  · exact .kept (fun _ _ => rfl) rfl (by simp) (by simp)
  split
  · exact .kept (fun _ _ => rfl) rfl (by simp) (by simp)
  split
  · exact .kept (fun _ _ => rfl) rfl (by simp) (by simp)
  split
  · exact .kept (fun _ _ => rfl) rfl (by simp) (by simp)
  rename_i record hrecord
  split
  · exact .kept (fun _ _ => rfl) rfl (by simp) (by simp)
  exact .granted hrecord rfl rfl

theorem renew_leaseChange (request : RenewWriterLease) :
    LeaseChange contract s (.renew request) (authority contract s (.renew request)) := by
  simp only [authority, renewLeaseRequest]
  split
  · refine .kept (fun _ _ => rfl) rfl (by simp) (fun grant h => ?_)
    refine replayLease_ne (fun outcome => ?_) (by simp) (Except.ok.inj (Reply.renew.inj h))
    cases outcome <;> simp [RenewLeaseOutcome.replay]
  split
  · exact .kept (fun _ _ => rfl) rfl (by simp) (by simp)
  split
  · exact .kept (fun _ _ => rfl) rfl (by simp) (by simp)
  split
  · exact .kept (fun _ _ => rfl) rfl (by simp) (by simp)
  split
  · exact .kept (fun _ _ => rfl) rfl (by simp) (by simp)
  rename_i record hrecord
  split
  · exact .kept (fun _ _ => rfl) rfl (by simp) (by simp)
  exact .renewed hrecord rfl rfl

theorem release_leaseChange (request : ReleaseWriterLease) :
    LeaseChange contract s (.release request) (authority contract s (.release request)) := by
  simp only [authority, releaseLeaseRequest]
  split
  · exact .kept (fun _ _ => rfl) rfl (by simp) (by simp)
  split
  · exact .kept (fun _ _ => rfl) rfl (by simp) (by simp)
  split
  · exact .kept (fun _ _ => rfl) rfl (by simp) (by simp)
  split
  · exact .kept (fun _ _ => rfl) rfl (by simp) (by simp)
  exact .released rfl rfl

theorem commitRequest_lastFencingTokens (request : CommitRequest) :
    (commitRequest contract s request).2.lastFencingTokens = s.lastFencingTokens := by
  unfold commitRequest
  split
  · rfl
  · split <;> rfl

theorem commit_leaseChange (request : CommitRequest) :
    LeaseChange contract s (.commit request) (authority contract s (.commit request)) := by
  refine .kept (fun fs scope => ?_) (commitRequest_lastFencingTokens contract s request) (by simp)
    (by simp)
  refine currentLease_of_getElem? ?_
  show (commitRequest contract s request).2.records[_]? = _
  rcases commitRequest_cases contract s request with ⟨staged, event, hstaged, hrecords, -⟩ | ⟨hsame, -⟩
  · rw [hrecords]
    refine hstaged.stamps.frame fun hwritten => ?_
    rcases hstaged.writtenKeys_storeOwned hwritten with hledger | hfree
    · cases hledger
    · simp [RecordKey.storeOwned, RecordKey.family] at hfree
  · rw [hsame.records]

theorem leaseChange (call : Call) : LeaseChange contract s call (authority contract s call) := by
  cases call with
  | commit request => exact commit_leaseChange contract s request
  | acquire request => exact acquire_leaseChange contract s request
  | renew request => exact renew_leaseChange contract s request
  | release request => exact release_leaseChange contract s request
  | injectCommitFailure timing => exact .kept (fun _ _ => rfl) rfl (by simp) (by simp)
  | advance ticks =>
    simp only [authority, AuthorityState.advance]
    split <;> exact .kept (fun _ _ => rfl) rfl (by simp) (by simp)
  | advanceTo deadline =>
    simp only [authority, AuthorityState.advanceTo]
    split <;> exact .kept (fun _ _ => rfl) rfl (by simp) (by simp)

end Changes

/-! ## The token history -/

section Tokens

variable {contract : Contract} {s : AuthorityState}

def AuthorityState.lastToken (s : AuthorityState) (fs : FilesystemId) (scope : WriterScopeId) :
    Option FencingToken :=
  s.lastFencingTokens.lookup (fs, scope)

/-- Every current lease carries the last token granted for its scope. -/
def Tracked (s : AuthorityState) : Prop :=
  ∀ fs scope lease, currentLease s.records fs scope = some lease →
    s.lastToken fs scope = some lease.fencingToken

/-- A token at least as large has been granted for the scope. -/
def Reached (s : AuthorityState) (fs : FilesystemId) (scope : WriterScopeId) (token : FencingToken) :
    Prop :=
  ∃ last, s.lastToken fs scope = some last ∧ token.get ≤ last.get

theorem lastToken_cons {s' : AuthorityState} {fs fs' : FilesystemId} {scope scope' : WriterScopeId}
    {token : FencingToken}
    (h : s'.lastFencingTokens = ((fs, scope), token) :: s.lastFencingTokens) :
    s'.lastToken fs' scope' =
      if fs = fs' ∧ scope = scope' then some token else s.lastToken fs' scope' := by
  rw [AuthorityState.lastToken, h, List.lookup_cons]
  by_cases heq : fs = fs' ∧ scope = scope'
  · obtain ⟨rfl, rfl⟩ := heq
    simp
  · have hne : ((fs', scope') == (fs, scope)) = false := by
      simp only [beq_eq_false_iff_ne, ne_eq, Prod.mk.injEq]
      exact fun h => heq ⟨h.1.symm, h.2.symm⟩
    rw [hne, if_neg heq]
    rfl

section

variable {call : Call} {result : Reply × AuthorityState} (h : LeaseChange contract s call result)

include h

theorem LeaseChange.tracked (htracked : Tracked s) : Tracked result.2 := by
  cases h with
  | kept leases tokens _ _ =>
    intro fs scope lease hlease
    rw [AuthorityState.lastToken, tokens]
    exact htracked fs scope lease (leases fs scope ▸ hlease)
  | granted grants records tokens =>
    intro fs scope lease hlease
    rw [records, currentLease_insert] at hlease
    rw [lastToken_cons tokens]
    split at hlease
    · cases hlease
      exact if_pos ‹_›
    · rw [if_neg ‹_›]
      exact htracked fs scope lease hlease
  | renewed renews records tokens =>
    intro fs scope lease hlease
    rw [AuthorityState.lastToken, tokens]
    rw [records, currentLease_insert] at hlease
    split at hlease
    · -- the renewed lease carries the token of the one it replaces
      rename_i heq
      obtain ⟨rfl, rfl⟩ := heq
      obtain ⟨previous, hprevious, hfence, -⟩ := renewCurrentLease_extends renews
      have htoken := htracked _ _ previous hprevious
      rw [← Option.some.inj hlease]
      exact htoken.trans (congrArg some (congrArg WriterFence.fencingToken hfence).symm)
    · exact htracked fs scope lease hlease
  | released records tokens =>
    intro fs scope lease hlease
    rw [AuthorityState.lastToken, tokens]
    rw [records, currentLease_erase] at hlease
    split at hlease
    · cases hlease
    · exact htracked fs scope lease hlease

/-- The last token of a scope never decreases. -/
theorem LeaseChange.reached {fs : FilesystemId} {scope : WriterScopeId} {token : FencingToken}
    (hreached : Reached s fs scope token) :
    Reached result.2 fs scope token := by
  obtain ⟨last, hlast, hle⟩ := hreached
  cases h with
  | kept _ tokens _ _ => exact ⟨last, by rw [AuthorityState.lastToken, tokens]; exact hlast, hle⟩
  | granted grants _ tokens =>
    rw [Reached, lastToken_cons tokens]
    split
    · rename_i heq
      obtain ⟨rfl, rfl⟩ := heq
      exact ⟨_, rfl, UInt64.le_of_lt (UInt64.lt_of_le_of_lt hle (grantWriterLease_token grants last hlast))⟩
    · exact ⟨last, hlast, hle⟩
  | renewed _ _ tokens => exact ⟨last, by rw [AuthorityState.lastToken, tokens]; exact hlast, hle⟩
  | released _ tokens => exact ⟨last, by rw [AuthorityState.lastToken, tokens]; exact hlast, hle⟩

end

end Tokens

/-! ## Histories -/

/-- One call by any client, with the time it reads. -/
def clockedAuthority (contract : Contract) (s : AuthorityState) (call : LeaseDeadline × Call) :
    Reply × AuthorityState :=
  authority contract { s with clock := call.1 } call.2

abbrev ClockedStep := Step AuthorityState (LeaseDeadline × Call) Reply

namespace ClockedStep

section

variable (step : ClockedStep) (fs : FilesystemId)

def Grants (scope : WriterScopeId) (grant : WriterLeaseGrant) : Prop :=
  ∃ request, step.input.2 = .acquire request ∧ request.filesystemId = fs ∧ request.scope = scope ∧
    step.output = .acquire (.ok (.granted grant))

/-- The step is a commit under the fence that was, or may have been, applied. -/
def Publishes (fence : WriterFence) : Prop :=
  ∃ request, step.input.2 = .commit request ∧ request.filesystemId = fs ∧ request.fence = fence ∧
    ((∃ committed, step.output = .commit (.ok (.committed committed))) ∨
      ∃ mutation, step.output = .commit (.ok (.ambiguous mutation)))

def leaseBefore (scope : WriterScopeId) :
    Option WriterLeaseRecord :=
  currentLease step.before.records fs scope

def leaseAfter (scope : WriterScopeId) :
    Option WriterLeaseRecord :=
  currentLease step.after.records fs scope

end

end ClockedStep

/-- The fencing guarantees of a history. -/
structure Fenced (steps : List ClockedStep) : Prop where
  /-- Each grant for a scope carries a larger token than every grant before it. -/
  increasing : steps.Pairwise fun a b => ∀ fs scope grant grant', a.Grants fs scope grant →
    b.Grants fs scope grant' → grant.fence.fencingToken.get < grant'.fence.fencingToken.get
  /-- Renewing continues the leases there are and creates none. -/
  renewal : ∀ step ∈ steps, ∀ request, step.input.2 = .renew request → ∀ fs scope,
    Option.Rel WriterLeaseRecord.Extends (step.leaseBefore fs scope) (step.leaseAfter fs scope)
  /-- A reported renewal is the lease of its scope. -/
  renewed : ∀ step ∈ steps, ∀ request grant, step.input.2 = .renew request →
    step.output = .renew (.ok (.renewed grant)) →
    ∃ lease, step.leaseAfter request.filesystemId request.fence.scope = some lease ∧
      grant = leaseGrant lease ∧ grant.fence = request.fence
  /-- No commit under a smaller token than one granted before is applied. -/
  fenced : steps.Pairwise fun a b => ∀ fs scope grant fence, a.Grants fs scope grant →
    fence.scope = scope → fence.fencingToken.get < grant.fence.fencingToken.get →
    ¬ b.Publishes fs fence

section Histories

variable (contract : Contract)

theorem clocked_leaseChange (s : AuthorityState) (call : LeaseDeadline × Call) :
    LeaseChange contract { s with clock := call.1 } call.2 (clockedAuthority contract s call) :=
  leaseChange contract _ _

theorem tracked_new (clock : LeaseDeadline) : Tracked (.new clock) := by
  intro fs scope lease hlease
  simp [AuthorityState.new, currentLease] at hlease

theorem tracked_clockedAuthority (s : AuthorityState) (call : LeaseDeadline × Call)
    (htracked : Tracked s) : Tracked (clockedAuthority contract s call).2 :=
  (clocked_leaseChange contract s call).tracked htracked

/-- What a grant leaves for every later state. -/
def LeavesReached (step : ClockedStep) (s : AuthorityState) : Prop :=
  ∀ fs scope grant, step.Grants fs scope grant → Reached s fs scope grant.fence.fencingToken

variable {s : AuthorityState} {call : LeaseDeadline × Call}

theorem grants_stepOf {fs : FilesystemId} {scope : WriterScopeId} {grant : WriterLeaseGrant}
    (h : ClockedStep.Grants (stepOf (clockedAuthority contract) s call) fs scope grant) :
    FencingToken.Below (s.lastToken fs scope) grant.fence.fencingToken ∧
    (clockedAuthority contract s call).2.lastToken fs scope = some grant.fence.fencingToken := by
  obtain ⟨request, hcall, rfl, rfl, houtput⟩ := h
  replace hcall : call.2 = .acquire request := hcall
  replace houtput : (clockedAuthority contract s call).1 = .acquire (.ok (.granted grant)) := houtput
  have hchange := clocked_leaseChange contract s call
  rw [hcall] at hchange
  generalize clockedAuthority contract s call = result at hchange houtput ⊢
  cases hchange with
  | kept _ _ ungranted _ => exact absurd houtput (ungranted grant)
  | granted grants _ tokens =>
    cases houtput
    exact ⟨grantWriterLease_token grants, (lastToken_cons tokens).trans (if_pos ⟨rfl, rfl⟩)⟩

theorem leavesReached_stepOf (s : AuthorityState) (call : LeaseDeadline × Call) :
    LeavesReached (stepOf (clockedAuthority contract) s call) (clockedAuthority contract s call).2 := by
  intro fs scope grant hgrants
  exact ⟨_, (grants_stepOf contract hgrants).2, UInt64.le_refl _⟩

theorem leavesReached_clockedAuthority {step : ClockedStep} (h : LeavesReached step s)
    (call : LeaseDeadline × Call) :
    LeavesReached step (clockedAuthority contract s call).2 :=
  fun fs scope grant hgrants => (clocked_leaseChange contract s call).reached (h fs scope grant hgrants)

/-- An applied commit carries the token of the current lease of its scope. -/
theorem publishes_stepOf {fs : FilesystemId} {fence : WriterFence}
    (h : ClockedStep.Publishes (stepOf (clockedAuthority contract) s call) fs fence) :
    ∃ lease, currentLease s.records fs fence.scope = some lease ∧ lease.fence = fence := by
  obtain ⟨request, hcall, rfl, rfl, hpublished⟩ := h
  obtain ⟨now, c⟩ := call
  obtain rfl : c = .commit request := hcall
  have hcommits : AuthorityStep.Commits
      (stepOf (authority contract) { s with clock := now } (.commit request)) request := rfl
  obtain ⟨staged, event, hstaged, -⟩ := staged_of_published hcommits hpublished
  have hfence := hstaged.fenced
  simp only [checkFence, bind_eq_ok] at hfence
  obtain ⟨_, -, hfence⟩ := hfence
  split at hfence
  · exact validateWriterFence_current ‹_›
  · cases hfence
  · cases hfence

theorem WriterLeaseRecord.Extends.rfl (lease : WriterLeaseRecord) : lease.Extends lease :=
  ⟨Eq.refl _, UInt64.le_refl _⟩

theorem extends_self (lease : Option WriterLeaseRecord) :
    Option.Rel WriterLeaseRecord.Extends lease lease := by
  cases lease with
  | none => exact .none
  | some lease => exact .some (.rfl lease)

/-- What a renewal does, reported or not. -/
theorem renewal_stepOf {request : RenewWriterLease} (hcall : call.2 = .renew request) :
    (∀ fs scope, Option.Rel WriterLeaseRecord.Extends (currentLease s.records fs scope)
      (currentLease (clockedAuthority contract s call).2.records fs scope)) ∧
    ∀ grant, (clockedAuthority contract s call).1 = .renew (.ok (.renewed grant)) →
      ∃ lease, currentLease (clockedAuthority contract s call).2.records request.filesystemId
        request.fence.scope = some lease ∧ grant = leaseGrant lease ∧ grant.fence = request.fence := by
  have hchange := clocked_leaseChange contract s call
  rw [hcall] at hchange
  generalize clockedAuthority contract s call = result at hchange ⊢
  cases hchange with
  | kept leases _ _ unrenewed =>
    refine ⟨fun fs scope => ?_, fun grant h => absurd h (unrenewed grant)⟩
    rw [leases fs scope]
    exact extends_self _
  | renewed renews records _ =>
    obtain ⟨lease, hlease, hextends⟩ := renewCurrentLease_extends renews
    refine ⟨fun fs scope => ?_, fun grant h => ?_⟩
    · rw [records, currentLease_insert]
      split
      · rename_i heq
        obtain ⟨rfl, rfl⟩ := heq
        show Option.Rel _ (currentLease s.records _ _) _
        rw [show currentLease s.records _ _ = some lease from hlease]
        exact .some hextends
      · exact extends_self _
    · cases h
      exact ⟨_, by rw [records, currentLease_insert, if_pos ⟨rfl, rfl⟩], rfl,
        renewCurrentLease_fence renews⟩

/-- **Writer fencing** over every history of calls, whatever times they read. -/
theorem fenced_trace (clock : LeaseDeadline) (history : List (LeaseDeadline × Call)) :
    Fenced (trace (clockedAuthority contract) (.new clock) history) where
  increasing := by
    refine trace_pairwise (I := fun _ => True) (P := LeavesReached) (fun _ _ => id)
      (fun s call _ => leavesReached_stepOf contract s call)
      (fun _ _ call _ h => leavesReached_clockedAuthority contract h call) ?_ trivial history
    intro a s call _ hreached fs scope grant grant' hgrants hgrants'
    obtain ⟨last, hlast, hle⟩ := hreached fs scope grant hgrants
    exact UInt64.lt_of_le_of_lt hle ((grants_stepOf contract hgrants').1 last hlast)
  renewal := by
    refine trace_forall (P := fun _ => True) (fun _ _ => id) ?_ trivial history
    rintro s ⟨now, call⟩ - request hcall fs scope
    exact (renewal_stepOf contract hcall).1 fs scope
  renewed := by
    refine trace_forall (P := fun _ => True) (fun _ _ => id) ?_ trivial history
    rintro s ⟨now, call⟩ - request grant hcall houtput
    exact (renewal_stepOf contract hcall).2 grant houtput
  fenced := by
    refine trace_pairwise (I := Tracked) (P := LeavesReached)
      (tracked_clockedAuthority contract) (fun s call _ => leavesReached_stepOf contract s call)
      (fun _ _ call _ h => leavesReached_clockedAuthority contract h call) ?_ (tracked_new clock) history
    rintro a s call htracked hreached fs scope grant fence hgrants rfl hlt hpublishes
    obtain ⟨lease, hlease, rfl⟩ := publishes_stepOf contract hpublishes
    obtain ⟨last, hlast, hle⟩ := hreached fs lease.fence.scope grant hgrants
    rw [htracked fs lease.fence.scope lease hlease] at hlast
    cases hlast
    exact UInt64.lt_irrefl _ (UInt64.lt_of_le_of_lt hle hlt)

end Histories

end W9pt.State
