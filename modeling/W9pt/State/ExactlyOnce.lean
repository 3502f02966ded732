import W9pt.State.Memory

/-!
# Commits are atomic and happen exactly once

Over every run of the authority, by any clients, with retries, lease changes, clock moves and
injected failures:

* a commit that is not `Committed` or `Ambiguous` leaves records, revision and history unchanged;
* a published commit leaves its ledger record, no later call removes or rewrites it, and a later
  commit of the same mutation is answered from it;
* so a mutation changes the records at most once.

The run results are instances of `Lib.trace_forall` and `Lib.trace_pairwise`.
-/

namespace W9pt.State

open Lib

abbrev AuthorityStep := Step AuthorityState Call Reply

namespace AuthorityStep

def Commits (step : AuthorityStep) (request : CommitRequest) : Prop := step.input = .commit request

/-- The step reports a commit that was, or may have been, applied. -/
def Published (step : AuthorityStep) : Prop :=
  (∃ committed, step.output = .commit (.ok (.committed committed))) ∨
    ∃ mutation, step.output = .commit (.ok (.ambiguous mutation))

/-- The step is a commit of the mutation and changes the records. -/
def Mutates (step : AuthorityStep) (fs : FilesystemId) (mutation : MutationId) : Prop :=
  ∃ request, step.Commits request ∧ request.filesystemId = fs ∧
    request.mutation.mutationId = mutation ∧ step.after.records ≠ step.before.records

/-- The later step is answered from the ledger record that the earlier one left. -/
def Replays (earlier later : AuthorityStep) : Prop :=
  ∀ request retry, earlier.Commits request → earlier.Published → later.Commits retry →
    retry.filesystemId = request.filesystemId →
    retry.mutation.mutationId = request.mutation.mutationId →
    later.after = later.before ∧
    (retry.mutation = request.mutation →
      later.output = .commit (.ok (.alreadyCommitted
        ⟨earlier.after.revision, request.terminalResult⟩))) ∧
    (retry.mutation ≠ request.mutation →
      ∃ mismatch, later.output = .commit (.ok (.mutationMismatch mismatch)))

end AuthorityStep

/-- What holds of a run of the authority. -/
structure ExactlyOnce (steps : List AuthorityStep) : Prop where
  /-- A mutation of a filesystem changes the records at most once. -/
  once : ∀ fs mutation, steps.Pairwise fun a b => ¬ (a.Mutates fs mutation ∧ b.Mutates fs mutation)
  /-- Any other outcome, and any failure, changes nothing. -/
  atomic : ∀ step ∈ steps, ∀ request, step.Commits request → ¬ step.Published →
    Unchanged step.before step.after
  /-- A published mutation is replayed, or refused, whatever else the retry carries. -/
  replayed : steps.Pairwise AuthorityStep.Replays
  /-- A commit reports the revision after the one it found. -/
  revision : ∀ step ∈ steps, ∀ request committed, step.Commits request →
    step.output = .commit (.ok (.committed committed)) →
    committed = ⟨step.after.revision, request.terminalResult⟩ ∧
    committed.revision.get.toNat = step.before.revision.get.toNat + 1

section Ledger

variable {contract : Contract} {s : AuthorityState} {request retry : CommitRequest}

/-- The ledger holds the record of the request, committed at the revision. -/
def Retained (s : AuthorityState) (request : CommitRequest) (revision : StateRevision) : Prop :=
  s.records[request.ledgerKey]? = some (.mutation (request.ledgerRecord revision))

theorem classifyRecord_ledgerRecord (revision : StateRevision)
    (hid : retry.mutation.mutationId = request.mutation.mutationId) :
    (retry.mutation = request.mutation →
      retry.mutation.classifyRecord (request.ledgerRecord revision) =
        .exact ⟨revision, request.terminalResult⟩) ∧
    (retry.mutation ≠ request.mutation →
      ∃ m, retry.mutation.classifyRecord (request.ledgerRecord revision) = .mismatch m) := by
  constructor
  · intro heq
    simp [MutationContext.classifyRecord, CommitRequest.ledgerRecord, heq,
      CommittedMutation.fromRecord]
  · intro hne
    unfold MutationContext.classifyRecord
    by_cases hf : retry.mutation.fingerprint = request.mutation.fingerprint
    · by_cases hc : retry.mutation.clientIncarnation = request.mutation.clientIncarnation
      · by_cases hr : retry.mutation.retention = request.mutation.retention
        · exact absurd (MutationContext.ext hid hf hc hr) hne
        · exact ⟨.retention, by simp [CommitRequest.ledgerRecord, hid, hf, hc, hr]⟩
      · exact ⟨.clientIncarnation, by simp [CommitRequest.ledgerRecord, hid, hf, hc]⟩
    · exact ⟨.fingerprint, by simp [CommitRequest.ledgerRecord, hid, hf]⟩

/-- A retained mutation is answered from the ledger and nothing changes. -/
theorem commitRequest_retained (contract : Contract) {revision : StateRevision}
    (h : Retained s request revision)
    (hfs : retry.filesystemId = request.filesystemId)
    (hid : retry.mutation.mutationId = request.mutation.mutationId) :
    (commitRequest contract s retry).2 = s ∧
    (retry.mutation = request.mutation → (commitRequest contract s retry).1 =
      .ok (.alreadyCommitted ⟨revision, request.terminalResult⟩)) ∧
    (retry.mutation ≠ request.mutation →
      ∃ m, (commitRequest contract s retry).1 = .ok (.mutationMismatch m)) := by
  have hget : s.records[RecordKey.mutation retry.filesystemId retry.mutation.mutationId]? =
      some (.mutation (request.ledgerRecord revision)) := by
    rw [hfs, hid]
    exact h
  obtain ⟨hexact, hmismatch⟩ := classifyRecord_ledgerRecord revision hid
  by_cases heq : retry.mutation = request.mutation
  · have hstage : stageCommit contract s retry =
        .error (.alreadyCommitted ⟨revision, request.terminalResult⟩) := by
      simp [stageCommit, lookupLedger, hget, hexact heq]
    simp [commitRequest, hstage, Refusal.result, heq]
  · obtain ⟨m, hm⟩ := hmismatch heq
    have hstage : stageCommit contract s retry = .error (.mutationMismatch m) := by
      simp [stageCommit, lookupLedger, hget, hm]
    simp [commitRequest, hstage, Refusal.result, heq]

theorem family_of_storeOwned {key : RecordKey} (h : key.storeOwned = false) :
    key.family ≠ .mutation := by
  rintro heq
  simp [RecordKey.storeOwned, heq] at h

theorem retained_of_staged {staged : RecordMap} {event : ChangeEvent} {s' : AuthorityState}
    (h : Staged contract s request staged event) (hrecords : s'.records = staged) :
    Retained s' request event.revision := by
  obtain ⟨base, -, -, rfl⟩ := h.applied
  rw [Retained, hrecords]
  exact Std.ExtTreeMap.getElem?_insert_self

/-- No call rewrites a retained ledger record. -/
theorem retained_step {revision : StateRevision} (h : Retained s request revision) (call : Call) :
    Retained (authority contract s call).2 request revision := by
  by_cases hcall : ∃ retry, call = .commit retry
  · obtain ⟨retry, rfl⟩ := hcall
    show Retained (commitRequest contract s retry).2 request revision
    by_cases hkey : retry.ledgerKey = request.ledgerKey
    · -- the same mutation is refused by the ledger lookup
      simp only [CommitRequest.ledgerKey, RecordKey.mutation.injEq] at hkey
      rw [(commitRequest_retained contract h hkey.1 hkey.2).1]
      exact h
    · rcases commitRequest_cases contract s retry with
        ⟨staged, event, hstaged, hrecords, -, -⟩ | ⟨hsame, -⟩
      · have hframe : request.ledgerKey ∉ retry.writtenKeys := fun hk =>
          (hstaged.writtenKeys_storeOwned hk).elim (fun heq => hkey heq.symm)
            (fun howned => family_of_storeOwned howned rfl)
        rw [Retained, hrecords, hstaged.stamps.frame hframe]
        exact h
      · rw [Retained, hsame.records]
        exact h
  · rcases authority_leaseStep contract s fun request heq => hcall ⟨request, heq⟩ with
      hsame | ⟨event, hadvances, -, hfamily, -⟩
    · rw [Retained, hsame.records]
      exact h
    · have hframe : request.ledgerKey ∉ event.keys := fun hk => by
        simpa [CommitRequest.ledgerKey, RecordKey.family] using hfamily _ hk
      rw [Retained, hadvances.stamps.frame hframe]
      exact h

end Ledger

/-! ## One step -/

section OneStep

variable {contract : Contract} {s : AuthorityState} {request : CommitRequest}

theorem output_commit :
    (stepOf (authority contract) s (.commit request)).output =
      .commit (commitRequest contract s request).1 := rfl

section

variable {call : Call}
  (hcommits : AuthorityStep.Commits (stepOf (authority contract) s call) request)

include hcommits

/-- A commit that is not published changes nothing. -/
theorem unchanged_of_not_published
    (h : ¬ AuthorityStep.Published (stepOf (authority contract) s call)) :
    Unchanged s (authority contract s call).2 := by
  obtain rfl : call = .commit request := hcommits
  rcases commitRequest_cases contract s request with ⟨_, event, -, -, -, hout⟩ | ⟨hsame, -⟩
  · refine absurd ?_ h
    rw [AuthorityStep.Published, output_commit]
    rcases hout with hout | hout
    · exact .inl ⟨_, by rw [hout]⟩
    · exact .inr ⟨_, by rw [hout]⟩
  · exact hsame

/-- A published commit is staged, and the next revision carries it. -/
theorem staged_of_published (h : AuthorityStep.Published (stepOf (authority contract) s call)) :
    ∃ staged event, Staged contract s request staged event ∧
      (authority contract s call).2.records = staged ∧
      (authority contract s call).2.revision = event.revision ∧
      ∀ committed, (stepOf (authority contract) s call).output = .commit (.ok (.committed committed)) →
        committed = ⟨event.revision, request.terminalResult⟩ := by
  obtain rfl : call = .commit request := hcommits
  rcases commitRequest_cases contract s request with
    ⟨staged, event, hstaged, hrecords, hadvances, hout⟩ | ⟨-, hcommitted, hambiguous⟩
  · refine ⟨staged, event, hstaged, hrecords, hadvances.revision, fun committed hc => ?_⟩
    rw [output_commit, Reply.commit.injEq] at hc
    rcases hout with hout | hout <;> rw [hout] at hc <;> simp at hc
    exact hc.symm
  · rw [AuthorityStep.Published, output_commit] at h
    rcases h with ⟨c, hc⟩ | ⟨m, hm⟩
    · exact absurd (Reply.commit.inj hc) (hcommitted c)
    · exact absurd (Reply.commit.inj hm) (hambiguous m)

end

end OneStep

/-! ## Runs -/

section Runs

variable (contract : Contract) (start : AuthorityState) (calls : List Call)

/-- What a published step leaves for every later state. -/
def LeavesRetained (step : AuthorityStep) (s : AuthorityState) : Prop :=
  ∀ request, step.Commits request → step.Published → Retained s request step.after.revision

theorem leavesRetained_stepOf (s : AuthorityState) (call : Call) :
    LeavesRetained (stepOf (authority contract) s call) (authority contract s call).2 := by
  intro request hcommits hpublished
  obtain ⟨staged, event, hstaged, hrecords, hrevision, -⟩ := staged_of_published hcommits hpublished
  show Retained _ _ (authority contract s call).2.revision
  rw [hrevision]
  exact retained_of_staged hstaged hrecords

theorem replays_of_leavesRetained {step : AuthorityStep} {s : AuthorityState}
    (h : LeavesRetained step s) (call : Call) :
    step.Replays (stepOf (authority contract) s call) := by
  rintro request retry hcommits hpublished hlater hfs hid
  obtain rfl : call = .commit retry := hlater
  obtain ⟨hstate, hexact, hmismatch⟩ :=
    commitRequest_retained contract (h request hcommits hpublished) hfs hid
  refine ⟨hstate, fun heq => ?_, fun hne => ?_⟩
  · rw [output_commit, hexact heq]
  · obtain ⟨m, hm⟩ := hmismatch hne
    exact ⟨m, by rw [output_commit, hm]⟩

/-- **Replay**: every later commit of a published mutation is answered from the ledger. -/
theorem replays_trace : (trace (authority contract) start calls).Pairwise AuthorityStep.Replays :=
  trace_pairwise (I := fun _ => True) (fun _ _ => id)
    (fun s call _ => leavesRetained_stepOf contract s call)
    (fun _ _ call _ h request hc hp => retained_step (h request hc hp) call)
    (fun _ _ call _ h => replays_of_leavesRetained contract h call) trivial calls

/-- Every step of a run is a step of the authority. -/
theorem mem_trace_stepOf : ∀ step ∈ trace (authority contract) start calls,
    ∃ s call, step = stepOf (authority contract) s call :=
  trace_forall (P := fun _ => True) (fun _ _ => id) (fun s call _ => ⟨s, call, rfl⟩) trivial calls

/-- **Commits are atomic and exactly once** in every run of the authority, from any state. -/
theorem exactlyOnce_trace : ExactlyOnce (trace (authority contract) start calls) where
  once fs mutation := by
    refine (replays_trace contract start calls).imp_of_mem fun {a b} ha hb hreplays => ?_
    rintro ⟨⟨request, hcommits, hfs, hid, hchanged⟩, retry, hretry, hfs', hid', hchanged'⟩
    obtain ⟨s, call, rfl⟩ := mem_trace_stepOf contract start calls a ha
    have hpublished : AuthorityStep.Published (stepOf (authority contract) s call) := by
      by_contra h
      exact hchanged (unchanged_of_not_published hcommits h).records
    obtain ⟨hsame, -⟩ := hreplays request retry hcommits hpublished hretry (hfs'.trans hfs.symm)
      (hid'.trans hid.symm)
    exact hchanged' (by rw [hsame])
  atomic step hstep request hcommits h := by
    obtain ⟨s, call, rfl⟩ := mem_trace_stepOf contract start calls step hstep
    exact unchanged_of_not_published hcommits h
  replayed := replays_trace contract start calls
  revision step hstep request committed hcommits hout := by
    obtain ⟨s, call, rfl⟩ := mem_trace_stepOf contract start calls step hstep
    obtain ⟨staged, event, hstaged, -, hrevision, hcommitted⟩ :=
      staged_of_published hcommits (.inl ⟨committed, hout⟩)
    obtain rfl := hcommitted committed hout
    exact ⟨by rw [← hrevision]; rfl, Counter.checkedNext_eq_ok.1 hstaged.next⟩

end Runs

end W9pt.State
