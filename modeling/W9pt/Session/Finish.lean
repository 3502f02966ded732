import W9pt.Session.Outcome

/-!
# What closing, renegotiating and completing can do

The loops over fids and operations in closed form, and the recursion of `finish_flush` as a relation
without depth bound (`Works`), whose induction follows the order in which flushes are answered.
-/

namespace W9pt.Connection

open Lib Protocol Session

variable {order : HashOrder} {s : Session}

/-! ## Draining -/

theorem foldl_drainFid (entries : List (Fid × FidState)) (s : Session) :
    entries.foldl (fun s entry => s.drainFid entry.2) s =
      { s with
        accounting := { s.accounting with fids := s.accounting.fids - entries.length }
        cleanup := s.cleanup ++ entries.flatMap fun entry => (cleanupOf entry.2).toList } := by
  induction entries generalizing s with
  | nil => simp
  | cons entry entries ih =>
    rw [List.foldl_cons, ih]
    simp only [drainFid, Accounting.release, List.length_cons, List.flatMap_cons, List.append_assoc,
      Nat.sub_sub, Nat.add_comm]

/-- The cleanup actions that drained fids leave. -/
def HashOrder.releases (order : HashOrder) (s : Session) : List CleanupAction :=
  (order.fids s.fids).flatMap fun entry => (cleanupOf entry.2).toList

theorem drainFidsToCleanup_eq (order : HashOrder) (s : Session) :
    s.drainFidsToCleanup order =
      { s with
        fids := ∅
        accounting := { s.accounting with fids := s.accounting.fids - s.fids.size }
        cleanup := s.cleanup ++ order.releases s } := by
  have hlength : (order.fids s.fids).length = s.fids.size := by
    rw [(order.fids_perm _).length_eq, Std.ExtTreeMap.length_toList]
  rw [drainFidsToCleanup, foldl_drainFid, hlength, HashOrder.releases]

/-- The cancellations `start_cleanup` still has to request. -/
def HashOrder.cancels (order : HashOrder) (s : Session) : List CleanupAction :=
  (order.pending s.pendingByTag).filterMap fun entry =>
    if entry.2.cancellationRequested then none
    else some (.cancel entry.2.operationId entry.2.kind)

/-- An operation whose reply was suppressed by cleanup. -/
def PendingOperation.silence (p : PendingOperation) : PendingOperation :=
  { p with responseSuppressed := true, cancellationRequested := true }

/-- A flush whose reply was suppressed by cleanup. -/
def FlushState.silence (f : FlushState) : FlushState := { f with responseSuppressed := true }

theorem startCleanup_eq (h : s.cleanupStarted = false) :
    s.startCleanup order =
      { s with
        cleanupStarted := true
        decoder := s.decoder.clear
        pendingByTag := s.pendingByTag.map fun _ p => p.silence
        flushes := s.flushes.map fun _ f => f.silence
        fids := ∅
        accounting := { s.accounting with fids := s.accounting.fids - s.fids.size }
        cleanup := s.cleanup ++ order.cancels s ++ order.releases s } := by
  rw [startCleanup, h, drainFidsToCleanup_eq]
  rfl

theorem startCleanup_of_started (h : s.cleanupStarted = true) : s.startCleanup order = s := by
  rw [startCleanup, if_pos h]

/-! ## Renegotiating -/

theorem foldl_abandon (entries : List (Tag × PendingOperation)) (s : Session) :
    entries.foldl (fun s entry => s.abandon entry.2) s =
      { s with
        accounting := { s.accounting with
          inFlightTags := s.accounting.inFlightTags - entries.length
          pendingWriteBytes := s.accounting.pendingWriteBytes -
            (entries.map fun entry => entry.2.writeBytes).sum }
        abandonedOperations := entries.foldl
          (fun abandoned entry => abandoned.insert entry.2.operationId entry.2.expected)
          s.abandonedOperations
        cleanup := s.cleanup ++
          entries.map fun entry => .cancel entry.2.operationId entry.2.kind } := by
  induction entries generalizing s with
  | nil => simp
  | cons entry entries ih =>
    rw [List.foldl_cons, ih]
    simp only [abandon, Accounting.release, List.length_cons, List.map_cons, List.sum_cons,
      List.foldl_cons, List.append_assoc, List.cons_append, List.nil_append, Nat.sub_sub,
      Nat.add_comm]

/-- The operations a renegotiation leaves to be completed by nobody's request. -/
def HashOrder.abandoned (order : HashOrder) (s : Session) :
    Std.ExtTreeMap OperationId ExpectedCompletion :=
  (order.pending s.pendingByTag).foldl
    (fun abandoned entry => abandoned.insert entry.2.operationId entry.2.expected)
    s.abandonedOperations

theorem renegotiate_eq (order : HashOrder) (s : Session) (msize : UInt32) (version : Bytes) :
    ∃ cleanup, s.renegotiate order msize version =
      { s with
        negotiatedMsize :=
          if version = dialect then some (min msize s.limits.maxFrameSize) else none
        decoder := s.decoder.clear
        flushes := ∅
        pendingByTag := ∅
        tagByOperation := ∅
        fids := ∅
        abandonedOperations := order.abandoned s
        accounting := { s.accounting with
          inFlightTags := s.accounting.inFlightTags - (s.flushes.size + s.pendingByTag.size)
          pendingWriteBytes := s.accounting.pendingWriteBytes -
            FinMap.total (·.writeBytes) s.pendingByTag
          fids := s.accounting.fids - s.fids.size }
        cleanup } := by
  have hlength : (order.pending s.pendingByTag).length = s.pendingByTag.size := by
    rw [(order.pending_perm _).length_eq, Std.ExtTreeMap.length_toList]
  have hsum : ((order.pending s.pendingByTag).map fun entry => entry.2.writeBytes).sum =
      FinMap.total (·.writeBytes) s.pendingByTag := by
    rw [((order.pending_perm _).map _).sum_eq, FinMap.total]
  refine ⟨(s.renegotiate order msize version).cleanup, ?_⟩
  simp only [renegotiate, resetForVersion, foldl_abandon, drainFidsToCleanup_eq, hlength, hsum,
    Accounting.release, Nat.sub_sub]
  rfl

/-- What a renegotiation leaves to be cleaned up. -/
theorem renegotiate_cleanup (order : HashOrder) (s : Session) (msize : UInt32) (version : Bytes) :
    (s.renegotiate order msize version).cleanup =
      s.cleanup ++ ((order.pending s.pendingByTag).map fun entry =>
        .cancel entry.2.operationId entry.2.kind) ++ order.releases s := by
  simp only [renegotiate, resetForVersion, foldl_abandon, drainFidsToCleanup_eq]
  rfl

/-! ## Settling an operation -/

/-- What settling an operation does to the fid it owns. -/
inductive Settled (s : Session) : Option Fid → Session → Prop where
  | nothing : Settled s none s
  | installed {fid : Fid} {state : FidState} (idle : state ≠ .pending) :
      Settled s (some fid) (s.setFid fid state)
  | retired {fid : Fid} : Settled s (some fid) (s.retireFid fid)

theorem settled_settle (continuation : Continuation) (completion : Completion) :
    Settled s continuation.owned (s.settle continuation completion).2 := by
  have houtcome := outcome_settle s continuation completion
  generalize (s.settle continuation completion).2 = s' at houtcome ⊢
  cases houtcome with
  | unowned free =>
    rw [free]
    exact .nothing
  | restored restores =>
    rw [Continuation.owned_of_restores restores]
    exact .installed (by simp)
  | retired owned =>
    rw [owned]
    exact .retired
  | authenticated | attached | walked | opened | created | xattrWalked | xattrCreated
  | xattrWritten => exact .installed (by simp)

/-! ## Replies of completions -/

theorem replyOrFail_cases (order : HashOrder) (s : Session) (response : Response)
    (reason : String) :
    (∃ bytes, s.CanReply response bytes ∧
      s.replyOrFail order response reason = s.pushFrame bytes) ∨
    s.replyOrFail order response reason = s.failProtocol order reason := by
  unfold replyOrFail
  rcases queueResponse_cases response s with ⟨e, he⟩ | ⟨bytes, hreply, hok⟩
  · rw [he]
    exact .inr rfl
  · rw [hok]
    exact .inl ⟨bytes, hreply, rfl⟩

def Session.dropFlush (s : Session) (tag : Tag) : Session :=
  { s with
    flushes := s.flushes.erase tag
    accounting := { s.accounting with
      inFlightTags := Accounting.release s.accounting.inFlightTags 1 } }

theorem answerFlush_eq (order : HashOrder) (s : Session) (tag : Tag) (flush : FlushState) :
    s.answerFlush order tag flush =
      if flush.responseSuppressed then s.dropFlush tag
      else (s.dropFlush tag).replyOrFail order ⟨tag, .flush⟩ "Rflush could not be queued" := rfl

/-- Answering flushes one after another, each before the flushes that wait for it. -/
inductive Works (order : HashOrder) : List Tag → Session → Session → Prop where
  | done {s : Session} : Works order [] s s
  | skip {s s' : Session} {tag : Tag} {tags : List Tag} (idle : s.flushes[tag]? = none)
      (rest : Works order tags s s') : Works order (tag :: tags) s s'
  | answer {s s' : Session} {tag : Tag} {tags : List Tag} {flush : FlushState}
      (active : s.flushes[tag]? = some flush)
      (rest : Works order (flush.waiters ++ tags) (s.answerFlush order tag flush) s') :
      Works order (tag :: tags) s s'

theorem Works.append {tags more : List Tag} {s₁ s' : Session} (h : Works order tags s s₁)
    (hmore : Works order more s₁ s') : Works order (tags ++ more) s s' := by
  induction h with
  | done => exact hmore
  | skip idle _ ih => exact .skip idle (ih hmore)
  | answer active _ ih =>
    have hnext := ih hmore
    rw [List.append_assoc] at hnext
    exact .answer active hnext

theorem startCleanup_flushes_size (order : HashOrder) (s : Session) :
    (s.startCleanup order).flushes.size = s.flushes.size := by
  cases hstarted : s.cleanupStarted with
  | true => rw [startCleanup_of_started hstarted]
  | false =>
    rw [startCleanup_eq hstarted]
    exact Std.ExtTreeMap.size_map

theorem replyOrFail_flushes_size (order : HashOrder) (s : Session) (response : Response)
    (reason : String) : (s.replyOrFail order response reason).flushes.size = s.flushes.size := by
  rcases replyOrFail_cases order s response reason with ⟨bytes, -, h⟩ | h
  · rw [h]
    rfl
  · rw [h]
    exact startCleanup_flushes_size order _

theorem answerFlush_flushes_size (order : HashOrder) {tag : Tag} {flush : FlushState}
    (active : s.flushes[tag]? = some flush) :
    (s.answerFlush order tag flush).flushes.size + 1 = s.flushes.size := by
  have herase := FinMap.size_erase_add_one active
  unfold answerFlush
  split
  · exact herase
  · rw [replyOrFail_flushes_size]
    exact herase

/-- A depth above the number of active flushes is never exhausted. -/
theorem finishFlush_works (order : HashOrder) (depth : Nat) :
    (∀ (s : Session) (tag : Tag), s.flushes.size < depth →
      Works order [tag] s (finishFlush order depth s tag) ∧
      (finishFlush order depth s tag).flushes.size ≤ s.flushes.size) := by
  induction depth with
  | zero => intro s tag h; omega
  | succ depth ih =>
    intro s tag hdepth
    have hfold : ∀ (tags : List Tag) (s : Session), s.flushes.size < depth →
        Works order tags s (tags.foldl (finishFlush order depth) s) ∧
        (tags.foldl (finishFlush order depth) s).flushes.size ≤ s.flushes.size := by
      intro tags
      induction tags with
      | nil => intro s _; exact ⟨.done, Nat.le_refl _⟩
      | cons t tags iht =>
        intro s hs
        obtain ⟨hfirst, hle⟩ := ih s t hs
        obtain ⟨hrest, hle'⟩ := iht (finishFlush order depth s t) (by omega)
        exact ⟨hfirst.append hrest, by rw [List.foldl_cons]; omega⟩
    rw [finishFlush]
    cases hflush : s.flushes[tag]? with
    | none => exact ⟨.skip hflush .done, Nat.le_refl _⟩
    | some flush =>
      have hsize := answerFlush_flushes_size order hflush
      obtain ⟨hworks, hle⟩ := hfold flush.waiters (s.answerFlush order tag flush) (by omega)
      refine ⟨.answer hflush ?_, by simp only; omega⟩
      rw [List.append_nil]
      exact hworks

/-- `finish_pending` answers the waiting flushes, and those that wait for them. -/
theorem finishFlushes_works (order : HashOrder) (tags : List Tag) (s : Session) :
    Works order tags s (s.finishFlushes order tags) := by
  induction tags generalizing s with
  | nil => exact .done
  | cons tag tags ih =>
    have hfirst := (finishFlush_works order (s.flushes.size + 1) s tag (by omega)).1
    exact hfirst.append (ih _)

/-- The stages of `finish_pending` (mod.rs:1860-1901): settle the fid, drain when the session is
closing, reply, answer the waiting flushes. -/
structure Finished (order : HashOrder) (s : Session) (tag : Tag) (p : PendingOperation)
    (completion : Completion) (s₁ s₂ s₃ s' : Session) : Prop where
  settled : s₁ = (s.settle p.continuation completion).2
  drained : s₂ = if s₁.terminalReason.isSome then s₁.drainFidsToCleanup order else s₁
  replied : s₃ = if p.responseSuppressed then s₂
    else s₂.replyOrFail order ⟨tag, (s.settle p.continuation completion).1⟩
      "terminal completion response could not be queued"
  answered : Works order p.flushWaiters s₃ s'

theorem finishPending_stages (order : HashOrder) (s : Session) (tag : Tag) (p : PendingOperation)
    (completion : Completion) : ∃ s₁ s₂ s₃,
      Finished order s tag p completion s₁ s₂ s₃ (s.finishPending order tag p completion) :=
  ⟨_, _, _, rfl, rfl, rfl, finishFlushes_works order _ _⟩

end W9pt.Connection
