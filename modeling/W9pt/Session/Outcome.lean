import W9pt.Session.Steps

/-!
# What a completion makes of a fid (`session/mod.rs:1923-2239`)

`finish_policy_success`, `finish_filesystem_success` and `rollback_continuation` pair some thirty
continuations with as many results. `Outcome` lists what can become of the fid an operation owns:
it gets its object back, goes away, or becomes what the result says.
-/

namespace W9pt.Connection

open Lib Protocol Session

/-- The object that a fid gets back when its operation fails (mod.rs:2188-2239). -/
def Continuation.restores : Continuation → Option (Fid × ObjectFid)
  | .walk sourceFid newFid source _ => if sourceFid = newFid then some (sourceFid, source) else none
  | .open fid original | .create fid original | .xattrCreate fid original _
  | .xattrWrite fid original _ => some (fid, original)
  | .noState _ | .authStart _ | .attach _ | .authRead _ | .authWrite _ | .authClunk _ | .releaseFid _
  | .removeFid _ | .read _ | .write _ | .statfs | .getattr | .setattr | .readlink | .readdir _ | .mkdir
  | .mknod | .symlink | .xattrWalk .. | .xattrRead _ | .xattrCommitFid _ | .xattrAbortFid .. | .fsync
  | .lock | .getlock => none

theorem Continuation.owned_of_restores {continuation : Continuation} {fid : Fid}
    {original : ObjectFid} (h : continuation.restores = some (fid, original)) :
    continuation.owned = some fid := by
  cases continuation with
  | walk sourceFid newFid source requested =>
    simp only [Continuation.restores] at h
    split at h
    · rename_i hsame
      cases h
      rw [Continuation.owned, hsame]
    · cases h
  | «open» | create | xattrCreate | xattrWrite =>
    cases h
    rfl
  | _ => cases h

/-- The object behind an attached fid (mod.rs:1933-1949). -/
def Session.attachedFid (s : Session) (attach : AttachResult) : ObjectFid where
  object := attach.root
  qid := attach.qid
  context := ⟨s.context.sessionId, attach.principal, attach.exportId⟩
  capabilities := attach.capabilities
  openInstance := none
  xattr := none

/-- The object behind a fid that was walked to a path element (mod.rs:2003-2010). -/
def ObjectFid.walkedTo (source : ObjectFid) (element : WalkElement) : ObjectFid :=
  { source with object := element.object, qid := element.qid, openInstance := none, xattr := none }

def ObjectFid.openedAs (original : ObjectFid) (result : OpenResult) : ObjectFid :=
  { original with qid := result.qid, openInstance := some result.openInstance, xattr := none }

def ObjectFid.createdAs (original : ObjectFid) (result : CreateResult) : ObjectFid :=
  { original with
    object := result.object, qid := result.qid, openInstance := some result.openInstance
    xattr := none }

/-- The object behind a fid that stands for an extended attribute (mod.rs:2106-2137). -/
def ObjectFid.withXattr (object : ObjectFid) (xattr : XattrState) : ObjectFid :=
  { object with openInstance := none, xattr := some xattr }

/-- What a completion makes of the fid that its operation owns. -/
inductive Outcome (s : Session) : Continuation → Completion → Session → Prop where
  | unowned {continuation : Continuation} {completion : Completion}
      (free : continuation.owned = none) : Outcome s continuation completion s
  | restored {continuation : Continuation} {completion : Completion} {fid : Fid}
      {original : ObjectFid} (restores : continuation.restores = some (fid, original)) :
      Outcome s continuation completion (s.setFid fid (.object original))
  | retired {continuation : Continuation} {completion : Completion} {fid : Fid}
      (owned : continuation.owned = some fid) (lost : continuation.restores = none) :
      Outcome s continuation completion (s.retireFid fid)
  | authenticated {fid : Fid} {id : OperationId} {qid : Qid} {handle : AuthHandle} :
      Outcome s (.authStart fid) (.policy id (.ok (.authStarted qid handle)))
        (s.setFid fid (.auth qid handle))
  | attached {fid : Fid} {id : OperationId} {attach : AttachResult} :
      Outcome s (.attach fid) (.policy id (.ok (.attached attach)))
        (s.setFid fid (.object (s.attachedFid attach)))
  | walked {sourceFid newFid : Fid} {source : ObjectFid} {requested : Nat} {id : OperationId}
      {elements : List WalkElement} {last : WalkElement} (reached : last ∈ elements) :
      Outcome s (.walk sourceFid newFid source requested) (.filesystem id (.ok (.walked elements)))
        (s.setFid newFid (.object (source.walkedTo last)))
  | opened {fid : Fid} {original : ObjectFid} {id : OperationId} {result : OpenResult} :
      Outcome s (.open fid original) (.filesystem id (.ok (.opened result)))
        (s.setFid fid (.object (original.openedAs result)))
  | created {fid : Fid} {original : ObjectFid} {id : OperationId} {result : CreateResult} :
      Outcome s (.create fid original) (.filesystem id (.ok (.created result)))
        (s.setFid fid (.object (original.createdAs result)))
  | xattrWalked {newFid : Fid} {source : ObjectFid} {id : OperationId} {result : XattrWalkResult} :
      Outcome s (.xattrWalk newFid source) (.filesystem id (.ok (.xattrWalked result)))
        (s.setFid newFid (.object (source.withXattr ⟨result.xattr, .read result.size⟩)))
  | xattrCreated {fid : Fid} {original : ObjectFid} {expectedSize : UInt64} {id : OperationId}
      {xattr : XattrHandle} :
      Outcome s (.xattrCreate fid original expectedSize) (.filesystem id (.ok (.xattrCreated xattr)))
        (s.setFid fid (.object (original.withXattr ⟨xattr, .write expectedSize 0⟩)))
  | xattrWritten {fid : Fid} {original : ObjectFid} {requested count : UInt32} {id : OperationId} :
      Outcome s (.xattrWrite fid original requested) (.filesystem id (.ok (.xattrWritten count)))
        (s.setFid fid (.object (addWritten original count)))

variable {s : Session}

theorem outcome_rollback (continuation : Continuation) (completion : Completion) :
    Outcome s continuation completion (s.rollbackContinuation continuation) := by
  cases continuation with
  | walk sourceFid newFid source requested =>
    simp only [rollbackContinuation, rollbackWalk]
    split
    · rename_i hsame
      exact .restored (by simp [Continuation.restores, hsame])
    · rename_i hother
      exact .retired rfl (by simp [Continuation.restores, hother])
  | «open» | create | xattrCreate | xattrWrite => exact .restored rfl
  | authStart | attach | authClunk | releaseFid | removeFid | xattrWalk | xattrCommitFid
  | xattrAbortFid => exact .retired rfl rfl
  | _ => exact .unowned rfl

theorem outcome_finishPolicy (continuation : Continuation) (id : OperationId)
    (result : PolicyResult) :
    Outcome s continuation (.policy id (.ok result)) (s.finishPolicySuccess continuation result).2 := by
  unfold finishPolicySuccess
  split
  · exact .authenticated
  · exact .attached
  · exact .unowned rfl
  · exact .unowned rfl
  · exact .retired rfl rfl
  · exact .unowned rfl
  · exact outcome_rollback _ _

theorem outcome_finishWalk (sourceFid newFid : Fid) (source : ObjectFid) (requested : Nat)
    (id : OperationId) (elements : List WalkElement) :
    Outcome s (.walk sourceFid newFid source requested) (.filesystem id (.ok (.walked elements)))
      (s.finishWalk sourceFid newFid source requested elements).2 := by
  have hrollback := outcome_rollback (s := s) (.walk sourceFid newFid source requested)
    (.filesystem id (.ok (.walked elements)))
  unfold finishWalk
  split
  · exact hrollback
  · rename_i last hlast
    split
    · exact hrollback
    · exact .walked (List.mem_of_getLast? hlast)

theorem outcome_finishXattrWrite (fid : Fid) (original : ObjectFid) (requested count : UInt32)
    (id : OperationId) :
    Outcome s (.xattrWrite fid original requested) (.filesystem id (.ok (.xattrWritten count)))
      (s.finishXattrWrite fid original requested count).2 := by
  unfold finishXattrWrite
  split
  · exact .restored rfl
  · exact .xattrWritten

theorem outcome_finishFilesystem (continuation : Continuation) (id : OperationId)
    (result : FilesystemResult) :
    Outcome s continuation (.filesystem id (.ok result))
      (s.finishFilesystemSuccess continuation result).2 := by
  -- a result of another kind rolls back, whatever the continuation is
  cases continuation with
  | walk sourceFid newFid source requested =>
    cases result with
    | walked elements => exact outcome_finishWalk _ _ _ _ _ _
    | _ => exact outcome_rollback (.walk sourceFid newFid source requested) _
  | releaseFid fid => cases result <;> exact .retired rfl rfl
  | removeFid fid => cases result <;> exact .retired rfl rfl
  | xattrCommitFid fid => cases result <;> exact .retired rfl rfl
  | xattrAbortFid fid errno => cases result <;> exact .retired rfl rfl
  | authStart fid => cases result <;> exact .retired rfl rfl
  | attach fid => cases result <;> exact .retired rfl rfl
  | authClunk fid => cases result <;> exact .retired rfl rfl
  | «open» fid original =>
    cases result with
    | opened result => exact .opened
    | _ => exact .restored rfl
  | create fid original =>
    cases result with
    | created result => exact .created
    | _ => exact .restored rfl
  | xattrCreate fid original expectedSize =>
    cases result with
    | xattrCreated xattr => exact .xattrCreated
    | _ => exact .restored rfl
  | xattrWalk newFid source =>
    cases result with
    | xattrWalked walked => exact .xattrWalked
    | _ => exact .retired rfl rfl
  | xattrWrite fid original requested =>
    cases result with
    | xattrWritten count => exact outcome_finishXattrWrite _ _ _ _ _
    | _ => exact .restored rfl
  | _ => cases result <;> exact .unowned rfl

/-- **Every completion leads to an outcome.** -/
theorem outcome_settle (s : Session) (continuation : Continuation) (completion : Completion) :
    Outcome s continuation completion (s.settle continuation completion).2 := by
  unfold settle
  split
  · exact outcome_rollback _ _
  · exact outcome_rollback _ _
  · exact outcome_rollback _ _
  · exact outcome_finishPolicy _ _ _
  · exact outcome_finishFilesystem _ _ _

end W9pt.Connection
