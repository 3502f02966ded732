import W9pt.Session.Invariant

/-!
# Attach confinement

A fid carries the context and the capabilities of the attach it descends from, through every walk,
clone, open, create and xattr request, in the fid table, in continuations and in cleanup. Where its
handles come from is a statement about the events of the run (`Obtained`): the root of an attach with
this context, or a successful completion of an effect with this context.

| here | there |
|---|---|
| `referencesOf`, `resultReferences` | the handles in `FilesystemOperation` and `FilesystemResult` |
| `Provenance` | what `finish_policy_success` and `finish_filesystem_success` put into a fid |
| `issuedOn` | the fid whose capabilities `emit_filesystem_checked` asks |
| `attach_confined` | the confinement of every effect of every run |
-/

namespace W9pt.Connection

open Lib Protocol Session

/-! ## References and where they come from -/

inductive Reference where
  | object (handle : ObjectHandle)
  | open (handle : OpenHandle)
  | xattr (handle : XattrHandle)
deriving DecidableEq

def referencesOf (operation : FilesystemOperation) : List Reference :=
  (objectsOf operation).map .object ++ (opensOf operation).map .open ++
    (xattrsOf operation).map .xattr

/-- The handles that a session takes from a result. -/
def resultReferences : FilesystemResult → List Reference
  | .walked elements => elements.map fun element => .object element.object
  | .opened result => [.open result.openInstance]
  | .created result => [.object result.object, .open result.openInstance]
  | .xattrWalked result => [.xattr result.xattr]
  | .xattrCreated xattr => [.xattr xattr]
  | _ => []

def ObjectFid.references (object : ObjectFid) : List Reference :=
  .object object.object ::
    (object.openInstance.toList.map .open ++ object.xattrHandle.toList.map .xattr)

/-- The context of the fids of an attach. -/
def contextOf (sessionId : SessionId) (result : AttachResult) : RequestContext :=
  ⟨sessionId, result.principal, result.exportId⟩

/-- The attach policy has answered with this result. -/
def Attaches (events : List Event) (result : AttachResult) : Prop :=
  ∃ id, Event.completed (.policy id (.ok (.attached result))) ∈ events

/-- The handle is the root of an attach with this context, or was handed out in a successful
completion of an effect with this context. -/
def Obtained (events : List Event) (sessionId : SessionId) (context : RequestContext)
    (reference : Reference) : Prop :=
  (∃ result, Attaches events result ∧ contextOf sessionId result = context ∧
    reference = .object result.root) ∨
  ∃ id operation result, Event.polled (.filesystem id ⟨context, operation⟩) ∈ events ∧
    Event.completed (.filesystem id (.ok result)) ∈ events ∧ reference ∈ resultReferences result

/-- The request has the context of an attach and names handles of that context. -/
structure Lawful (events : List Event) (sessionId : SessionId) (request : FilesystemRequest) :
    Prop where
  granted : ∃ result, Attaches events result ∧ request.context = contextOf sessionId result
  obtained : ∀ reference ∈ referencesOf request.operation,
    Obtained events sessionId request.context reference

/-- The object has context and capabilities of one attach and handles of that context. -/
structure Provenance (events : List Event) (sessionId : SessionId) (object : ObjectFid) : Prop where
  granted : ∃ result, Attaches events result ∧ object.context = contextOf sessionId result ∧
    object.capabilities = result.capabilities
  obtained : ∀ reference ∈ object.references, Obtained events sessionId object.context reference

section

variable {past events : List Event} {sessionId : SessionId}

theorem Attaches.mono (h : past ⊆ events) {result : AttachResult} (attaches : Attaches past result) :
    Attaches events result :=
  attaches.imp fun _ hmem => h hmem

theorem Obtained.mono (h : past ⊆ events) {context : RequestContext} {reference : Reference}
    (obtained : Obtained past sessionId context reference) :
    Obtained events sessionId context reference := by
  rcases obtained with ⟨result, hattaches, hroot⟩ | ⟨id, operation, result, hpolled, hcompleted, hmem⟩
  · exact .inl ⟨result, hattaches.mono h, hroot⟩
  · exact .inr ⟨id, operation, result, h hpolled, h hcompleted, hmem⟩

theorem Lawful.mono (h : past ⊆ events) {request : FilesystemRequest}
    (lawful : Lawful past sessionId request) : Lawful events sessionId request where
  granted := by
    obtain ⟨result, hattaches, hcontext⟩ := lawful.granted
    exact ⟨result, hattaches.mono h, hcontext⟩
  obtained reference hmem := (lawful.obtained reference hmem).mono h

variable {object : ObjectFid}

theorem Provenance.mono (h : past ⊆ events) (provenance : Provenance past sessionId object) :
    Provenance events sessionId object where
  granted := by
    obtain ⟨result, hattaches, hcontext⟩ := provenance.granted
    exact ⟨result, hattaches.mono h, hcontext⟩
  obtained reference hmem := (provenance.obtained reference hmem).mono h

/-- An operation on behalf of a fid that names handles of the fid. -/
theorem Provenance.lawful (provenance : Provenance events sessionId object)
    {operation : FilesystemOperation}
    (covers : ∀ reference ∈ referencesOf operation, reference ∈ object.references) :
    Lawful events sessionId ⟨object.context, operation⟩ where
  granted := by
    obtain ⟨result, hattaches, hcontext, -⟩ := provenance.granted
    exact ⟨result, hattaches, hcontext⟩
  obtained reference hmem := provenance.obtained reference (covers reference hmem)

/-- A fid that takes over context and capabilities of another one. -/
theorem Provenance.derive {source : ObjectFid} (provenance : Provenance events sessionId source)
    (context : object.context = source.context)
    (capabilities : object.capabilities = source.capabilities)
    (obtained : ∀ reference ∈ object.references, reference ∈ source.references ∨
      Obtained events sessionId source.context reference) :
    Provenance events sessionId object where
  granted := by
    rw [context, capabilities]
    exact provenance.granted
  obtained reference hmem := by
    rw [context]
    rcases obtained reference hmem with hold | hnew
    · exact provenance.obtained reference hold
    · exact hnew

end

/-! ## Operations and the fids they are about -/

variable {operation : FilesystemOperation}

variable {object : ObjectFid}

theorem mem_references_of (objects : ∀ handle ∈ objectsOf operation, handle = object.object)
    (opens : ∀ handle ∈ opensOf operation, object.openInstance = some handle)
    (xattrs : ∀ handle ∈ xattrsOf operation, object.xattrHandle = some handle) :
    ∀ reference ∈ referencesOf operation, reference ∈ object.references := by
  intro reference hmem
  rcases List.mem_append.1 hmem with hmem | hxattr
  · rcases List.mem_append.1 hmem with hobject | hopen
    · obtain ⟨handle, hhandle, rfl⟩ := List.mem_map.1 hobject
      rw [objects handle hhandle]
      exact List.mem_cons_self
    · obtain ⟨handle, hhandle, rfl⟩ := List.mem_map.1 hopen
      simp [ObjectFid.references, opens handle hhandle]
  · obtain ⟨handle, hhandle, rfl⟩ := List.mem_map.1 hxattr
    simp [ObjectFid.references, xattrs handle hhandle]

variable {continuation : Continuation}

variable {fid : Fid}

theorem ObjectFid.ChangesBy.covers (changes : object.ChangesBy fid operation continuation) :
    ∀ reference ∈ referencesOf operation, reference ∈ object.references := by
  cases changes with
  | opened | created | xattrCreated | walked =>
    exact mem_references_of (by simp [objectsOf]) (by simp [opensOf]) (by simp [xattrsOf])
  | xattrWritten held =>
    refine mem_references_of (by simp [objectsOf]) (by simp [opensOf]) ?_
    simp [xattrsOf, ObjectFid.xattrHandle, held]

theorem ObjectFid.EndsBy.covers (ends : object.EndsBy fid operation continuation) :
    ∀ reference ∈ referencesOf operation, reference ∈ object.references := by
  cases ends with
  | released | aborted =>
    exact mem_references_of (by simp [objectsOf]) (by simp [opensOf]) (by simp [xattrsOf])
  | committed held =>
    refine mem_references_of (by simp [objectsOf]) (by simp [opensOf]) ?_
    simp [xattrsOf, ObjectFid.xattrHandle, held]
  | removed =>
    exact mem_references_of (by simp [objectsOf]) (by simp [opensOf]) (by simp [xattrsOf])

theorem ObjectFid.YieldsBy.covers {newFid : Fid}
    (yields : object.YieldsBy fid newFid operation continuation) :
    ∀ reference ∈ referencesOf operation, reference ∈ object.references := by
  cases yields <;>
    exact mem_references_of (by simp [objectsOf]) (by simp [opensOf]) (by simp [xattrsOf])

/-! ## What a session retains -/

/-- The object that a continuation will build a fid from. -/
def Continuation.source : Continuation → Option ObjectFid
  | .walk _ _ source _ | .xattrWalk _ source => some source
  | .open _ original | .create _ original | .xattrCreate _ original _ | .xattrWrite _ original _ =>
    some original
  | _ => none

theorem Continuation.source_of_restores {original : ObjectFid}
    (h : continuation.restores = some (fid, original)) :
    continuation.source = some original := by
  cases continuation with
  | walk sourceFid newFid source requested =>
    simp only [Continuation.restores] at h
    split at h
    · cases h
      rfl
    · cases h
  | «open» | create | xattrCreate | xattrWrite =>
    cases h
    rfl
  | _ => cases h

theorem Continuation.source_of_free (h : continuation.owned = none) :
    continuation.source = none := by
  cases continuation <;> first | rfl | cases h

/-- Everything in the session comes from the events, polled or still queued. -/
structure Traced (planned : List Event) (s : Session) : Prop where
  fids : ∀ (fid : Fid) (object : ObjectFid), s.fids[fid]? = some (.object object) →
    Provenance planned s.context.sessionId object
  pending : ∀ (tag : Tag) (p : PendingOperation) (object : ObjectFid),
    s.pendingByTag[tag]? = some p → p.continuation.source = some object →
    Provenance planned s.context.sessionId object ∧
      ∃ operation, Event.polled (.filesystem p.operationId ⟨object.context, operation⟩) ∈ planned
  cleanup : ∀ request, .filesystem request ∈ s.cleanup → Lawful planned s.context.sessionId request

section

variable {fresh : Session → Prop} {planned more : List Event} {s s' s₁ : Session} {tag : Tag}

theorem Traced.mono (h : planned ⊆ more) (traced : Traced planned s) : Traced more s where
  fids fid object hfid := (traced.fids fid object hfid).mono h
  pending tag p object hp hsource := by
    obtain ⟨hprovenance, operation, hpolled⟩ := traced.pending tag p object hp hsource
    exact ⟨hprovenance.mono h, operation, h hpolled⟩
  cleanup request hrequest := (traced.cleanup request hrequest).mono h

section

variable (traced : Traced planned s)

include traced

theorem Traced.setFid (fid : Fid) {state : FidState}
    (hstate : ∀ object, state = .object object → Provenance planned s.context.sessionId object) :
    Traced planned (s.setFid fid state) where
  fids f object hobject := by
    simp only [Session.setFid, Std.ExtTreeMap.getElem?_insert, Std.compare_eq_iff_eq] at hobject
    split at hobject
    · exact hstate object (Option.some.inj hobject)
    · exact traced.fids f object hobject
  pending := traced.pending
  cleanup := traced.cleanup

theorem Traced.retireFid (fid : Fid) : Traced planned (s.retireFid fid) := by
  unfold Session.retireFid
  split
  · refine ⟨fun f object hobject => ?_, traced.pending, traced.cleanup⟩
    simp only [Std.ExtTreeMap.getElem?_erase] at hobject
    split at hobject
    · cases hobject
    · exact traced.fids f object hobject
  · exact traced

/-- The release of a drained fid names the handles of the fid. -/
theorem Traced.releases {order : HashOrder} {request : FilesystemRequest}
    (h : .filesystem request ∈ order.releases s) : Lawful planned s.context.sessionId request := by
  obtain ⟨⟨fid, state⟩, hentry, hmem⟩ := List.mem_flatMap.1 h
  have hfid : s.fids[fid]? = some state :=
    Std.ExtTreeMap.mem_toList_iff_getElem?_eq_some.1 ((order.fids_perm _).mem_iff.1 hentry)
  cases state with
  | pending | auth => simp [cleanupOf] at hmem
  | object object =>
    simp only [cleanupOf, Option.toList_some, List.mem_singleton, CleanupAction.filesystem.injEq] at hmem
    rw [hmem]
    refine (traced.fids fid object hfid).lawful (mem_references_of ?_ ?_ ?_)
    · simp [objectsOf]
    · simp [opensOf]
    · simp [xattrsOf, ObjectFid.xattrHandle]

/-- All fids are gone and what is left of them is cleanup. -/
theorem Traced.drain (order : HashOrder) (cancels : List CleanupAction)
    (context : s'.context = s.context) (fids : s'.fids = ∅)
    (pending : ∀ (tag : Tag) (p : PendingOperation), s'.pendingByTag[tag]? = some p →
      ∃ q, s.pendingByTag[tag]? = some q ∧ p.continuation = q.continuation ∧ p.operationId = q.operationId)
    (cleanup : s'.cleanup = s.cleanup ++ cancels ++ order.releases s)
    (hcancels : ∀ request, .filesystem request ∉ cancels) : Traced planned s' where
  fids fid object hobject := by
    rw [fids] at hobject
    simp at hobject
  pending tag p object hp hsource := by
    obtain ⟨q, hq, hcontinuation, hid⟩ := pending tag p hp
    rw [context, hid]
    exact traced.pending tag q object hq (hcontinuation ▸ hsource)
  cleanup request hrequest := by
    rw [cleanup, List.mem_append, List.mem_append] at hrequest
    rw [context]
    rcases hrequest with (hold | hcancel) | hrelease
    · exact traced.cleanup request hold
    · exact absurd hcancel (hcancels request)
    · exact traced.releases hrelease

theorem Traced.close (order : HashOrder) (decoder : FrameDecoder) (reason : CloseReason) :
    Traced planned (s.close order decoder reason) := by
  by_cases hstarted : s.cleanupStarted = true
  · rw [Session.close, startCleanup, if_pos hstarted]
    exact ⟨traced.fids, traced.pending, traced.cleanup⟩
  · rw [Session.close, startCleanup_eq (by simpa using hstarted)]
    refine traced.drain order (order.cancels s) rfl rfl ?_ rfl ?_
    · intro tag p hp
      rw [Std.ExtTreeMap.getElem?_map] at hp
      obtain ⟨q, hq, rfl⟩ := Option.map_eq_some_iff.1 hp
      exact ⟨q, hq, rfl, rfl⟩
    · intro request hmem
      obtain ⟨entry, -, hentry⟩ := List.mem_filterMap.1 hmem
      split at hentry <;> cases hentry

theorem Traced.renegotiate (order : HashOrder) (msize : UInt32) (version : Bytes) :
    Traced planned (s.renegotiate order msize version) := by
  have hcleanup := renegotiate_cleanup order s msize version
  obtain ⟨cleanup, heq⟩ := renegotiate_eq order s msize version
  refine traced.drain order _ (by rw [heq]) (by rw [heq]) ?_ hcleanup ?_
  · intro tag p hp
    rw [heq] at hp
    simp at hp
  · intro request hmem
    obtain ⟨entry, -, hentry⟩ := List.mem_map.1 hmem
    cases hentry

end

variable {continuation : Continuation}

variable {reservation : Reservation} {writeBytes : Nat}

/-- **What is emitted on behalf of a fid stays within the context of the fid.** -/
theorem Traced.emits (traced : Traced planned s) {request : FilesystemRequest}
    (decided : Decided s (.emit reservation (.filesystem request) continuation writeBytes)) :
    Lawful planned s.context.sessionId request := by
  cases decided with
  | operate present _ covers =>
    exact (traced.fids _ _ present).lawful
      (mem_references_of covers.objects covers.opens covers.xattrs)
  | @pair first second object other operation response present present' shared _ objects opens
      xattrs =>
    have hfirst := traced.fids _ _ present
    have hsecond := traced.fids _ _ present'
    obtain ⟨result, hattaches, hcontext, -⟩ := hfirst.granted
    refine ⟨⟨result, hattaches, hcontext⟩, fun reference hmem => ?_⟩
    simp only [referencesOf, objects, opens, xattrs, List.map_cons, List.map_nil, List.append_nil,
      List.mem_cons, List.not_mem_nil, or_false] at hmem
    -- the second fid has the context that the effect carries
    rcases hmem with rfl | rfl
    · exact hfirst.obtained _ List.mem_cons_self
    · show Obtained planned _ object.context _
      rw [shared]
      exact hsecond.obtained _ List.mem_cons_self
  | change present _ changes => exact (traced.fids _ _ present).lawful changes.covers
  | finish present _ ends => exact (traced.fids _ _ present).lawful ends.covers
  | yield present _ _ yields => exact (traced.fids _ _ present).lawful yields.covers

/-- The object in the continuation of new work is a fid of the context of the work. -/
theorem Traced.source (traced : Traced planned s) {work : Work}
    (decided : Decided s (.emit reservation work continuation writeBytes)) {object : ObjectFid}
    (source : continuation.source = some object) :
    Provenance planned s.context.sessionId object ∧
      ∃ operation, work = .filesystem ⟨object.context, operation⟩ := by
  cases decided with
  | operate _ _ _ _ free =>
    rw [Continuation.source_of_free free] at source
    cases source
  | pair => cases source
  | change present _ changes =>
    cases changes <;>
      (cases source; exact ⟨traced.fids _ _ present, _, rfl⟩)
  | finish _ _ ends => cases ends <;> cases source
  | yield present _ _ yields =>
    cases yields <;>
      (cases source; exact ⟨traced.fids _ _ present, _, rfl⟩)
  | enrol _ admits => cases admits <;> cases source
  | authenticate _ authenticates => cases authenticates <;> cases source
  | dismiss => cases source

theorem Reserved.traced {fid : Option Fid} (reserved : Reserved s fid s₁)
    (traced : Traced planned s) : Traced planned s₁ := by
  cases reserved with
  | nothing => exact traced
  | @claimed fid | @taken fid =>
    have hset : Traced planned (s.setFid fid .pending) := traced.setFid fid nofun
    exact ⟨hset.fids, hset.pending, hset.cleanup⟩

theorem Traced.emitted (traced : Traced planned s) (tag : Tag) (id : OperationId) {work : Work}
    (decided : Decided s (.emit reservation work continuation writeBytes))
    (reserved : reservation.reserve s = .ok s₁) :
    Traced (planned ++ [.polled (work.effect id)])
      (s₁.emitted tag id work continuation writeBytes) := by
  have hreserved := decided.reserved reserved
  have htraced := hreserved.traced traced
  obtain ⟨fids, count, rfl⟩ := hreserved.frame
  have hmore := htraced.mono (List.subset_append_left planned [.polled (work.effect id)])
  refine ⟨hmore.fids, fun t p object hp hsource => ?_, hmore.cleanup⟩
  simp only [Session.emitted, Session.track, Std.ExtTreeMap.getElem?_insert,
    Std.compare_eq_iff_eq] at hp
  split at hp
  · cases hp
    obtain ⟨hprovenance, operation, rfl⟩ := traced.source decided hsource
    refine ⟨hprovenance.mono (List.subset_append_left _ _), operation, ?_⟩
    exact List.mem_append_right _ (List.mem_singleton_self _)
  · exact hmore.pending t p object hp hsource

theorem addWritten_keeps (object : ObjectFid) (count : UInt32) :
    (addWritten object count).context = object.context ∧
    (addWritten object count).capabilities = object.capabilities ∧
    (addWritten object count).references = object.references := by
  rcases object with ⟨_, _, _, _, _, _ | ⟨_, _ | _⟩⟩ <;> exact ⟨rfl, rfl, rfl⟩

/-- **A completed operation builds a fid of its own context.** -/
theorem Outcome.traced {completion : Completion}
    (outcome : Outcome s continuation completion s') (traced : Traced planned s)
    (completed : .completed completion ∈ planned)
    (source : ∀ object, continuation.source = some object →
      Provenance planned s.context.sessionId object ∧ ∃ operation, Event.polled
        (.filesystem completion.operationId ⟨object.context, operation⟩) ∈ planned) :
    Traced planned s' := by
  have hset : ∀ (fid : Fid) (object : ObjectFid), Provenance planned s.context.sessionId object →
      Traced planned (s.setFid fid (.object object)) := by
    intro fid object hprovenance
    refine traced.setFid fid fun o ho => ?_
    cases ho
    exact hprovenance
  -- a fid made of the source and of what the result hands out
  have hderive : ∀ {fid : Fid} {object object' : ObjectFid} {id : OperationId}
      {result : FilesystemResult}, completion = .filesystem id (.ok result) →
      continuation.source = some object → object'.context = object.context →
      object'.capabilities = object.capabilities →
      (∀ reference ∈ object'.references,
        reference ∈ object.references ∨ reference ∈ resultReferences result) →
      Traced planned (s.setFid fid (.object object')) := by
    rintro fid object object' id result rfl hsource hcontext hcapabilities hreferences
    obtain ⟨hprovenance, operation, hpolled⟩ := source object hsource
    refine hset _ _ (hprovenance.derive hcontext hcapabilities fun reference hmem => ?_)
    refine (hreferences reference hmem).imp_right fun hnew => ?_
    exact .inr ⟨id, operation, result, hpolled, completed, hnew⟩
  cases outcome with
  | unowned => exact traced
  | restored restores => exact hset _ _ (source _ (Continuation.source_of_restores restores)).1
  | retired => exact traced.retireFid _
  | authenticated => exact traced.setFid _ nofun
  | @attached fid id attach =>
    have hattaches : Attaches planned attach := ⟨id, completed⟩
    refine hset _ _ ⟨⟨attach, hattaches, rfl, rfl⟩, fun reference hmem => ?_⟩
    simp only [Session.attachedFid, ObjectFid.references, ObjectFid.xattrHandle, Option.map_none,
      Option.toList_none, List.map_nil, List.append_nil, List.mem_singleton] at hmem
    exact .inl ⟨attach, hattaches, rfl, hmem⟩
  | walked reached =>
    refine hderive rfl rfl rfl rfl fun reference hmem => .inr ?_
    simp only [ObjectFid.walkedTo, ObjectFid.references, ObjectFid.xattrHandle, Option.map_none,
      Option.toList_none, List.map_nil, List.append_nil, List.mem_singleton] at hmem
    rw [hmem]
    exact List.mem_map_of_mem reached
  | opened | created | xattrWalked | xattrCreated =>
    refine hderive rfl rfl rfl rfl ?_
    simp [ObjectFid.openedAs, ObjectFid.createdAs, ObjectFid.withXattr, ObjectFid.references,
      ObjectFid.xattrHandle, resultReferences]
  | @xattrWritten fid original requested count id =>
    obtain ⟨hcontext, hcapabilities, hreferences⟩ := addWritten_keeps original count
    refine hderive rfl rfl hcontext hcapabilities fun reference hmem => .inl ?_
    rwa [hreferences] at hmem

theorem Traced.settle (traced : Traced planned s) (order : HashOrder) {p : PendingOperation}
    {completion : Completion} (completed : .completed completion ∈ planned)
    (present : s.pendingByTag[tag]? = some p) (id : p.operationId = completion.operationId) :
    Traced planned (s.settled order tag p completion) := by
  have huntracked : Traced planned (s.untrack p.operationId tag p) := by
    refine ⟨traced.fids, fun t q object hq hsource => ?_, traced.cleanup⟩
    simp only [Session.untrack, Std.ExtTreeMap.getElem?_erase] at hq
    split at hq
    · cases hq
    · exact traced.pending t q object hq hsource
  have hsettled : Traced planned
      ((s.untrack p.operationId tag p).settle p.continuation completion).2 := by
    refine (outcome_settle _ _ _).traced huntracked completed fun object hsource => ?_
    rw [← id]
    exact traced.pending tag p object present hsource
  unfold Session.settled
  dsimp only
  split
  · rw [drainFidsToCleanup_eq]
    refine hsettled.drain order [] rfl rfl (fun _ q hq => ⟨q, hq, rfl, rfl⟩) ?_ (by simp)
    rw [List.append_nil]
  · exact hsettled

end

/-! ## Runs -/

section

variable {fresh : Session → Prop} {s s' : Session} {tag : Tag} {events : List Event}

/-- Each queued effect is lawful after the events and the effects before it. -/
def LawfulQueue (sessionId : SessionId) : List Event → List Effect → Prop
  | _, [] => True
  | past, effect :: effects =>
    (∀ id request, effect = .filesystem id request → Lawful past sessionId request) ∧
      LawfulQueue sessionId (past ++ [.polled effect]) effects

theorem LawfulQueue.mono {sessionId : SessionId} {past : List Event} {effects : List Effect}
    (h : past ⊆ events) (lawful : LawfulQueue sessionId past effects) :
    LawfulQueue sessionId events effects := by
  induction effects generalizing past events with
  | nil => trivial
  | cons effect effects ih =>
    refine ⟨fun id request heq => (lawful.1 id request heq).mono h, ih ?_ lawful.2⟩
    exact List.append_subset.2 ⟨List.subset_append_of_subset_left _ h, List.subset_append_right _ _⟩

variable {effect : Effect}

theorem LawfulQueue.concat {sessionId : SessionId} {effects : List Effect}
    (lawful : LawfulQueue sessionId events effects)
    (last : ∀ id request, effect = .filesystem id request →
      Lawful (events ++ effects.map .polled) sessionId request) :
    LawfulQueue sessionId events (effects ++ [effect]) := by
  induction effects generalizing events with
  | nil =>
    rw [List.map_nil, List.append_nil] at last
    exact ⟨last, trivial⟩
  | cons first effects ih =>
    refine ⟨lawful.1, ih lawful.2 fun id request heq => ?_⟩
    rw [List.append_assoc]
    exact last id request heq

/-- The events of a run and those still queued. -/
def planned (events : List Event) (s : Session) : List Event := events ++ s.effects.map .polled

/-- What holds of a session and its events. -/
structure Confined (events : List Event) (s : Session) : Prop where
  history : ∀ past id request future, events = past ++ .polled (.filesystem id request) :: future →
    Lawful past s.context.sessionId request
  queue : LawfulQueue s.context.sessionId events s.effects
  traced : Traced (planned events s) s

theorem Confined.of_same (confined : Confined events s) (context : s'.context = s.context)
    (effects : s'.effects = s.effects) (traced : Traced (planned events s) s') :
    Confined events s' where
  history := context ▸ confined.history
  queue := by
    rw [context, effects]
    exact confined.queue
  traced := by
    rw [planned, effects]
    exact traced

theorem Confined.of_push (confined : Confined events s) (context : s'.context = s.context)
    (effects : s'.effects = s.effects ++ [effect])
    (lawful : ∀ id request, effect = .filesystem id request →
      Lawful (planned events s) s.context.sessionId request)
    (traced : Traced (planned events s ++ [.polled effect]) s') : Confined events s' where
  history := context ▸ confined.history
  queue := by
    rw [context, effects]
    exact confined.queue.concat lawful
  traced := by
    rw [planned, effects, List.map_append, ← List.append_assoc]
    exact traced

theorem Confined.move (confined : Confined events s) (move : Move fresh s s') :
    Confined events s' := by
  have traced := confined.traced
  have hmore : ∀ effect, Traced (planned events s ++ [.polled effect]) s :=
    fun effect => traced.mono (List.subset_append_left _ _)
  cases move with
  | decode | burn | joinFlush | dropFlush =>
    exact confined.of_same rfl rfl ⟨traced.fids, traced.pending, traced.cleanup⟩
  | @clone fid newFid source _ present =>
    refine confined.of_same rfl rfl ?_
    have hclaimed : Traced (planned events s) (s.claim newFid) := by
      have hset : Traced (planned events s) (s.setFid newFid .pending) := traced.setFid newFid nofun
      exact ⟨hset.fids, hset.pending, hset.cleanup⟩
    refine hclaimed.setFid newFid fun object hobject => ?_
    cases hobject
    exact traced.fids fid source present
  | frame | cancel =>
    exact confined.of_push rfl rfl nofun
      ⟨(hmore _).fids, (hmore _).pending, (hmore _).cleanup⟩
  | @emit s₁ tag _ work _ _ id _ _ decided reserved =>
    have hemitted := traced.emitted tag id decided reserved
    obtain ⟨fids, count, rfl⟩ := (decided.reserved reserved).frame
    refine confined.of_push rfl rfl (fun id' request heq => ?_) hemitted
    cases work with
    | policy => cases heq
    | filesystem =>
      cases heq
      exact traced.emits decided
  | @joinPending _ oldTag target _ active =>
    refine confined.of_same rfl rfl ⟨traced.fids, fun t p object hp hsource => ?_, traced.cleanup⟩
    simp only [Session.joinPending, Std.ExtTreeMap.getElem?_insert, Std.compare_eq_iff_eq] at hp
    split at hp
    · cases hp
      exact traced.pending oldTag target object active hsource
    · exact traced.pending t p object hp hsource
  | close order decoder reason =>
    obtain ⟨heffects, hcontext⟩ := close_effects order s decoder reason
    exact confined.of_same hcontext heffects (traced.close order decoder reason)
  | renegotiate order _ _ msize version =>
    have hrenewed := traced.renegotiate order msize version
    obtain ⟨cleanup, heq⟩ := renegotiate_eq order s msize version
    exact confined.of_same (by rw [heq]) (by rw [heq]) hrenewed

theorem split_concat {last event : Event} {past future : List Event}
    (h : events ++ [last] = past ++ event :: future) :
    (∃ rest, events = past ++ event :: rest) ∨ (past = events ∧ event = last ∧ future = []) := by
  rcases List.eq_nil_or_concat future with rfl | ⟨rest, other, rfl⟩
  · obtain ⟨hpast, hlast⟩ := List.append_inj' h rfl
    exact .inr ⟨hpast.symm, (List.cons.inj hlast).1.symm, rfl⟩
  · rw [List.concat_eq_append, ← List.cons_append, ← List.append_assoc] at h
    exact .inl ⟨rest, (List.append_inj' h rfl).1⟩

theorem Confined.complete (confined : Confined events s) {completion : Completion}
    (context : s'.context = s.context) (effects : s'.effects = s.effects)
    (traced : Traced (planned (events ++ [.completed completion]) s) s') :
    Confined (events ++ [.completed completion]) s' where
  history past id request future heq := by
    rw [context]
    rcases split_concat heq with ⟨rest, hrest⟩ | ⟨-, hlast, -⟩
    · exact confined.history past id request rest hrest
    · cases hlast
  queue := by
    rw [context, effects]
    exact confined.queue.mono (List.subset_append_left _ _)
  traced := by
    rw [planned, effects]
    exact traced

theorem planned_completed (events : List Event) (completion : Completion) (s : Session) :
    planned events s ⊆ planned (events ++ [.completed completion]) s ∧
      .completed completion ∈ planned (events ++ [.completed completion]) s := by
  refine ⟨fun event hevent => ?_, ?_⟩
  · rcases List.mem_append.1 hevent with hold | hqueued
    · exact List.mem_append_left _ (List.mem_append_left _ hold)
    · exact List.mem_append_right _ hqueued
  · exact List.mem_append_left _ (List.mem_append_right _ (List.mem_singleton_self _))

theorem Confined.settle (confined : Confined events s) (order : HashOrder) {p : PendingOperation}
    (completion : Completion) (present : s.pendingByTag[tag]? = some p)
    (id : p.operationId = completion.operationId) :
    Confined (events ++ [.completed completion]) (s.settled order tag p completion) := by
  obtain ⟨hsubset, hcompleted⟩ := planned_completed events completion s
  obtain ⟨heffects, hcontext⟩ := settled_effects order s tag p completion
  exact confined.complete hcontext heffects
    ((confined.traced.mono hsubset).settle order hcompleted present id)

theorem Confined.forget (confined : Confined events s) (completion : Completion) :
    Confined (events ++ [.completed completion])
      { s with abandonedOperations := s.abandonedOperations.erase completion.operationId } := by
  have htraced := confined.traced.mono (planned_completed events completion s).1
  exact confined.complete rfl rfl ⟨htraced.fids, htraced.pending, htraced.cleanup⟩

theorem Confined.leave (confined : Confined events s) (context : s'.context = s.context)
    (lawful : ∀ id request, effect = .filesystem id request →
      Lawful events s.context.sessionId request)
    (queue : LawfulQueue s.context.sessionId (events ++ [.polled effect]) s'.effects)
    (traced : Traced (planned (events ++ [.polled effect]) s') s') :
    Confined (events ++ [.polled effect]) s' where
  history past id request future heq := by
    rw [context]
    rcases split_concat heq with ⟨rest, hrest⟩ | ⟨rfl, hlast, -⟩
    · exact confined.history past id request rest hrest
    · cases hlast
      exact lawful id request rfl
  queue := by
    rw [context]
    exact queue
  traced := traced

theorem Traced.cleanup_subset {plan : List Event} (traced : Traced plan s)
    (context : s'.context = s.context) (fids : s'.fids = s.fids)
    (pending : s'.pendingByTag = s.pendingByTag) (cleanup : s'.cleanup ⊆ s.cleanup) :
    Traced plan s' where
  fids := by
    rw [context, fids]
    exact traced.fids
  pending := by
    rw [context, pending]
    exact traced.pending
  cleanup request hrequest := by
    rw [context]
    exact traced.cleanup request (cleanup hrequest)

theorem Confined.poll (confined : Confined events s) {effect : Option Effect}
    (step : PollStep s (effect, s')) : Confined (events ++ effect.toList.map .polled) s' := by
  have traced := confined.traced
  have hqueue := confined.queue
  -- an effect that leaves a session with an empty queue
  have hleave : ∀ {effect : Effect} {s' : Session}, s.effects = [] → s'.effects = [] →
      s'.context = s.context → s'.fids = s.fids → s'.pendingByTag = s.pendingByTag →
      s'.cleanup ⊆ s.cleanup →
      (∀ id request, effect = .filesystem id request →
        Lawful events s.context.sessionId request) →
      Confined (events ++ [.polled effect]) s' := by
    intro effect s' hidle hidle' hcontext hfids hpending hcleanup hlawful
    have hplanned : planned events s = events := by rw [planned, hidle]; exact List.append_nil _
    rw [hplanned] at traced
    refine confined.leave hcontext hlawful (by rw [hidle']; trivial) ?_
    rw [planned, hidle', List.map_nil, List.append_nil]
    exact (traced.mono (List.subset_append_left _ _)).cleanup_subset hcontext hfids hpending hcleanup
  cases step with
  | @queued effect effects head =>
    rw [head] at hqueue
    refine confined.leave rfl hqueue.1 hqueue.2 ?_
    have hplanned : planned (events ++ [.polled effect]) (s.pop effect effects) =
        planned events s := by
      rw [planned, planned, head, List.append_assoc]
      rfl
    rw [hplanned]
    exact ⟨traced.fids, traced.pending, traced.cleanup⟩
  | cancelled idle head =>
    exact hleave idle idle rfl rfl rfl (by rw [head]; exact List.subset_cons_self _ _) nofun
  | @handed work cleanup id idle head next =>
    refine hleave idle idle rfl rfl rfl (by rw [head]; exact List.subset_cons_self _ _) ?_
    intro id' request heq
    have hplanned : planned events s = events := by rw [planned, idle]; exact List.append_nil _
    cases work with
    | policy => cases heq
    | filesystem =>
      cases heq
      rw [hplanned] at traced
      refine traced.cleanup _ ?_
      rw [head]
      exact List.mem_cons_self
  | exhausted idle head =>
    rw [Option.toList_none, List.map_nil, List.append_nil]
    refine confined.of_same rfl rfl (traced.cleanup_subset rfl rfl rfl ?_)
    rw [head]
    exact List.subset_cons_self _ _
  | closed idle clean =>
    exact hleave idle idle rfl rfl rfl (by exact fun _ h => h) nofun
  | idle =>
    rw [Option.toList_none, List.map_nil, List.append_nil]
    exact confined

theorem confined_new {limits : Limits} {context : SessionContext}
    (created : Session.new limits context = .ok s) : Confined [] s := by
  simp only [Session.new, bind_eq_ok, pure_eq_ok] at created
  obtain ⟨_, -, rfl⟩ := created
  refine ⟨fun past id request future heq => ?_, trivial, ⟨?_, ?_, ?_⟩⟩
  · simp at heq
  · intro fid object hobject
    simp [Session.initial] at hobject
  · intro tag p object hp
    simp [Session.initial] at hp
  · intro request hrequest
    simp [Session.initial] at hrequest

theorem survives_confined : Survives (fun _ => True) (fun _ _ _ => True) Confined where
  renews _ := renews_always _ _ _
  new created := confined_new created
  move _ confined step := confined.move step
  settle order _ confined active _ id _ := confined.settle order _ active id
  forget _ confined _ _ := confined.forget _
  poll _ confined step _ := confined.poll step

end

/-! ## The capabilities of a request -/

section

variable {s : Session} {fid : Fid} {issuer : Option Fid}

/-- Every filesystem effect of the second session is queued in the first one already. -/
def Session.Silent (s s' : Session) : Prop :=
  ∀ id request, Effect.filesystem id request ∈ s'.effects → Effect.filesystem id request ∈ s.effects

variable {s' s₁ : Session} {tag : Tag}

theorem silent_of_same (effects : s'.effects = s.effects) : s.Silent s' :=
  fun _ _ hmem => effects ▸ hmem

theorem silent_of_push {effect : Effect} (effects : s'.effects = s.effects ++ [effect])
    (other : ∀ id request, effect ≠ .filesystem id request) : s.Silent s' := by
  intro id request hmem
  rw [effects, List.mem_append, List.mem_singleton] at hmem
  rcases hmem with hold | heq
  · exact hold
  · exact absurd heq.symm (other id request)

theorem silent_queueResponse (effects : s₁.effects = s.effects) (response : Response) :
    s.Silent (after (queueResponse response s₁)) := by
  rcases queueResponse_cases response s₁ with ⟨e, he⟩ | ⟨bytes, -, hok⟩
  · rw [he]
    exact silent_of_same effects
  · rw [hok]
    have hpush : (s₁.pushFrame bytes).effects = s.effects ++ [.sendFrame bytes] := by
      rw [← effects]
      rfl
    exact silent_of_push hpush nofun

theorem silent_requestCancel (target : PendingOperation) (s : Session) :
    s.Silent (after (requestCancel target s)) := by
  unfold requestCancel
  split
  · exact silent_of_same rfl
  · rcases queueEffect_cases (.cancel target.operationId target.kind) s with ⟨e, he⟩ | ⟨-, hok⟩
    · rw [he]
      exact silent_of_same rfl
    · rw [hok]
      exact silent_of_push rfl nofun

theorem silent_handleFlush (tag oldTag : Tag) (s : Session) :
    s.Silent (after (handleFlush tag oldTag s)) := by
  unfold handleFlush
  split
  · rename_i target _
    have hcancel := silent_requestCancel target s
    split
    · exact silent_of_same rfl
    · generalize requestCancel target s = r at hcancel ⊢
      rcases r with ⟨⟨⟩, s₁⟩ | ⟨e, s₁⟩
      · dsimp only
        split <;> exact hcancel
      · exact hcancel
  · split
    · split
      · exact silent_of_same rfl
      · split <;> exact silent_of_same rfl
    · exact silent_queueResponse rfl _

theorem silent_failProtocol (order : HashOrder) (s : Session) (reason : String) :
    s.Silent (s.failProtocol order reason) :=
  silent_of_same (close_effects order s s.decoder.clear (.protocolViolation reason)).1

/-- Emitting an operation queues that operation, or nothing. -/
theorem perform_emit {reservation : Reservation} {work : Work} {writeBytes : Nat}
    (inactive : s.Inactive tag)
    (decided : Decided s (.emit reservation work continuation writeBytes)) :
    (after ((Plan.emit reservation work continuation writeBytes).perform tag s)).effects = s.effects ∨
    ∃ id, (after ((Plan.emit reservation work continuation writeBytes).perform tag s)).effects =
      s.effects ++ [work.effect id] := by
  cases hreserve : reservation.reserve s with
  | error e =>
    simp only [Plan.perform, hreserve]
    exact .inl rfl
  | ok s₁ =>
    have hsame := Reservation.reserve_sameQueue hreserve
    obtain ⟨hundo, hissue⟩ := Reservation.release_reserve decided.valid hreserve
    have hemits := emits tag (by rw [hsame.pendingByTag]; exact inactive.1) work continuation
      writeBytes
    obtain ⟨fids, count, rfl⟩ := (decided.reserved hreserve).frame
    simp only [Plan.perform, hreserve, undoing]
    generalize work.emit tag continuation writeBytes _ = r at hemits ⊢
    cases hemits with
    | refused | exhausted =>
      left
      simp only [after, hundo]
    | burned =>
      left
      simp only [after, hissue]
      rfl
    | @emitted id => exact .inr ⟨id, rfl⟩

theorem perform_filesystem {plan : Plan} (inactive : s.Inactive tag) (decided : Decided s plan)
    (permitted : plan.Permitted s issuer) {id : OperationId} {operation : FilesystemRequest}
    (queued : Effect.filesystem id operation ∈ (after (plan.perform tag s)).effects) :
    Effect.filesystem id operation ∈ s.effects ∨ ∃ fid object, issuer = some fid ∧
      s.fids[fid]? = some (.object object) ∧ operation.context = object.context ∧
      object.capabilities.requireFor operation.operation = .ok () := by
  cases plan with
  | reply body => exact .inl (silent_queueResponse rfl _ _ _ queued)
  | clone fid object =>
    left
    simp only [Plan.perform, Reservation.reserve] at queued
    rcases reserve_cases s.accounting.fids 1 s.limits.maxFids .fids with ⟨-, hok⟩ | ⟨-, e, he⟩
    · simp only [hok] at queued
      refine silent_queueResponse ?_ _ _ _ queued
      rfl
    · simp only [he] at queued
      exact queued
  | emit reservation work continuation writeBytes =>
    rcases perform_emit inactive decided with hsame | ⟨next, hpush⟩
    · exact .inl (hsame ▸ queued)
    · rw [hpush, List.mem_append, List.mem_singleton] at queued
      rcases queued with hold | hnew
      · exact .inl hold
      · cases work with
        | policy => cases hnew
        | filesystem request =>
          cases hnew
          exact .inr permitted

/-- **A filesystem effect that a request queues is within the capabilities of the fid that the request
is issued on.** -/
theorem dispatch_filesystem (order : HashOrder) {request : Request} {id : OperationId}
    {operation : FilesystemRequest}
    (queued : Effect.filesystem id operation ∈ (after (dispatch order request s)).effects) :
    Effect.filesystem id operation ∈ s.effects ∨ ∃ fid object, issuedOn request.body = some fid ∧
      s.fids[fid]? = some (.object object) ∧ operation.context = object.context ∧
      object.capabilities.requireFor operation.operation = .ok () := by
  unfold dispatch at queued
  split at queued
  · -- a new version releases fids through the cleanup of the session
    left
    unfold handleVersion at queued
    split at queued
    · exact silent_queueResponse rfl _ _ _ queued
    · split at queued
      · exact silent_failProtocol order s _ _ _ queued
      · refine silent_queueResponse ?_ _ _ _ queued
        rename_i msize version _ _ _
        obtain ⟨cleanup, heq⟩ := renegotiate_eq order s msize version
        show (s.renegotiate order msize version).effects = s.effects
        rw [heq]
  · rename_i hversion
    split at queued
    · exact .inl (silent_failProtocol order s _ _ _ queued)
    · split at queued
      · exact .inl (silent_queueResponse rfl _ _ _ queued)
      · rename_i hinactive
        rw [not_or] at hinactive
        split at queued
        · exact .inl (silent_queueResponse rfl _ _ _ queued)
        · split at queued
          · exact .inl (silent_handleFlush _ _ s _ _ queued)
          · rename_i hplain
            have hserve := carries_serve request.tag s hplain hversion
            rw [hserve.performs] at queued
            exact perform_filesystem hinactive hserve.decided hserve.permitted queued

theorem Move.context_eq {fresh : Session → Prop} (move : Move fresh s s') :
    s'.context = s.context := by
  cases move with
  | close order decoder reason => exact (close_effects order s decoder reason).2
  | renegotiate order _ _ msize version =>
    obtain ⟨cleanup, heq⟩ := renegotiate_eq order s msize version
    rw [heq]
  | emit _ _ decided reserved =>
    obtain ⟨fids, count, rfl⟩ := (decided.reserved reserved).frame
    rfl
  | _ => rfl

theorem Moves.context_eq {fresh : Session → Prop} (moves : Moves fresh s s') :
    s'.context = s.context := by
  induction moves with
  | refl => rfl
  | tail _ step ih => exact step.context_eq.trans ih

/-- The sessions in which the frames of one call are dispatched. -/
inductive Dispatching (order : HashOrder) (s : Session) : Session → Prop where
  | frame : Dispatching order s s
  | bytes (decoder : FrameDecoder) : Dispatching order s { s with decoder }
  | next {t t' : Session} {frame : Bytes} (before : Dispatching order s t)
      (active : t.terminalReason = none) (received : receiveDecodedFrame order frame t = .ok () t') :
      Dispatching order s t'

theorem Dispatching.moves {order : HashOrder} {t : Session} (h : Dispatching order s t) :
    Moves (fun _ => True) s t := by
  induction h with
  | frame => exact moves_refl s
  | bytes decoder => exact (Move.decode decoder).moves
  | @next t t' frame before active received ih =>
    have hmoves : Moves (fun _ => True) t (after (receiveDecodedFrame order frame t)) :=
      (runs_receiveDecodedFrame order active fun _ _ _ => trivial).moves
    rw [received] at hmoves
    exact ih.trans hmoves

theorem attaches_of_planned {events : List Event} {result : AttachResult}
    (h : Attaches (planned events s) result) : Attaches events result := by
  obtain ⟨id, hmem⟩ := h
  rcases List.mem_append.1 hmem with hevents | hqueued
  · exact ⟨id, hevents⟩
  · obtain ⟨effect, -, heq⟩ := List.mem_map.1 hqueued
    cases heq

/-- **Attach confinement.** Every filesystem effect has the context of an attach and names handles
that were obtained under this context; one that a request queues is within the capabilities that this
attach granted to the fid of the request. -/
theorem attach_confined (events : List Event) (s : Session)
    (trace : Trace (fun _ _ _ => True) events s) :
    (∀ past id request future, events = past ++ .polled (.filesystem id request) :: future →
      Lawful past s.context.sessionId request) ∧
    ∀ order t, Dispatching order s t → ∀ request id operation,
      Effect.filesystem id operation ∈ (after (dispatch order request t)).effects →
      Effect.filesystem id operation ∈ t.effects ∨ ∃ fid object result,
        issuedOn request.body = some fid ∧ t.fids[fid]? = some (.object object) ∧
        Attaches events result ∧ operation.context = contextOf s.context.sessionId result ∧
        object.context = contextOf s.context.sessionId result ∧
        object.capabilities = result.capabilities ∧
        result.capabilities.requireFor operation.operation = .ok () := by
  have hconfined := trace.invariant survives_confined
  refine ⟨hconfined.history, fun order t dispatching request id operation queued => ?_⟩
  have hmoves := dispatching.moves
  have hbooks := bookkeeping_of_reachable trace.reachable
  obtain ⟨-, hdispatched⟩ := survives_confined.moves hbooks hconfined hmoves
  rcases dispatch_filesystem order queued with hold | ⟨fid, object, hissued, hfid, hcontext, hpermitted⟩
  · exact .inl hold
  · obtain ⟨result, hattaches, hgranted, hcapabilities⟩ :=
      (hdispatched.traced.fids fid object hfid).granted
    rw [hmoves.context_eq] at hgranted
    exact .inr ⟨fid, object, result, hissued, hfid, attaches_of_planned hattaches,
      hcontext.trans hgranted, hgranted, hcapabilities, hcapabilities ▸ hpermitted⟩

/-- A second `Tattach`, of fid 2 under tag 1. -/
def secondAttachFrame : Bytes :=
  [23, 0, 0, 0, 104, 1, 0, 2, 0, 0, 0, 255, 255, 255, 255, 0, 0, 0, 0, 255, 255, 255, 255]

/-- `Tlink` of fid 2 into the directory of fid 1, under tag 1. -/
def linkFrame : Bytes := [18, 0, 0, 0, 70, 1, 0, 1, 0, 0, 0, 2, 0, 0, 0, 1, 0, 97]

/-- A client attaches twice, to two roots of one export, and links one root into the other. -/
def twoRootsRun : List Call :=
  [.receiveFrame versionFrame, .pollEffect,
    .receiveFrame attachFrame, .pollEffect, .complete attachedCompletion, .pollEffect,
    .receiveFrame secondAttachFrame, .pollEffect,
    .complete (.policy 2 (.ok (.attached ⟨[], [], ⟨2⟩, ⟨Qid.directory, 0, 2⟩, .all⟩))), .pollEffect,
    .receiveFrame linkFrame, .pollEffect]

/-- The effect of the link. -/
def linkRequest : FilesystemRequest := ⟨⟨⟨1⟩, [], []⟩, .link ⟨1⟩ ⟨2⟩ [97]⟩

/-- The two attaches and what came before the link. -/
theorem twoRootsRun_events : ∃ first second third attach attach',
    narrowSession.eventsOfRun .sorted twoRootsRun =
      [.polled (.sendFrame first), .polled (.policy 1 attach), .completed attachedCompletion,
        .polled (.sendFrame second), .polled (.policy 2 attach'),
        .completed (.policy 2 (.ok (.attached ⟨[], [], ⟨2⟩, ⟨Qid.directory, 0, 2⟩, .all⟩))),
        .polled (.sendFrame third)] ++ .polled (.filesystem 3 linkRequest) :: [] :=
  ⟨_, _, _, _, _, rfl⟩

theorem twoRootsRun_trace : Trace (fun _ _ _ => True)
    (narrowSession.eventsOfRun .sorted twoRootsRun) (narrowSession.run .sorted twoRootsRun) :=
  .of_new (show Session.new narrowLimits ⟨⟨1⟩, none⟩ = .ok narrowSession from rfl)
    (along_always .sorted narrowSession twoRootsRun)

/-- The link is confined to the context of both attaches. -/
theorem attach_confined_twoRootsRun :
    ∃ past, narrowSession.eventsOfRun .sorted twoRootsRun =
      past ++ .polled (.filesystem 3 linkRequest) :: [] ∧ Lawful past ⟨1⟩ linkRequest := by
  obtain ⟨_, _, _, _, _, hevents⟩ := twoRootsRun_events
  exact ⟨_, hevents, (attach_confined _ _ twoRootsRun_trace).1 _ _ _ _ hevents⟩

/-- The request names the root of one attach, and handles of effects with its context. -/
def OfOneAttach (events : List Event) (sessionId : SessionId) (request : FilesystemRequest) : Prop :=
  ∃ result, Attaches events result ∧ request.context = contextOf sessionId result ∧
    ∀ reference ∈ referencesOf request.operation, reference = .object result.root ∨
      ∃ id operation outcome, Event.polled (.filesystem id ⟨request.context, operation⟩) ∈ events ∧
        Event.completed (.filesystem id (.ok outcome)) ∈ events ∧
        reference ∈ resultReferences outcome

/-- **Two attaches of one context share their handles.** The pair of a link or a rename is compared by
context only (mod.rs:793, 828, 864), so the root of the second attach is used together with the first. -/
theorem twoRootsRun_mixes_attaches : ¬ ∀ events s, Trace (fun _ _ _ => True) events s →
    ∀ past id request future, events = past ++ .polled (.filesystem id request) :: future →
      OfOneAttach past s.context.sessionId request := by
  intro h
  obtain ⟨first, second, third, attach, attach', hevents⟩ := twoRootsRun_events
  obtain ⟨result, ⟨id, hattaches⟩, -, hreferences⟩ :=
    h _ _ twoRootsRun_trace _ _ _ _ hevents
  -- nothing was ever obtained from an effect
  have hroot : ∀ reference ∈ referencesOf linkRequest.operation,
      reference = .object result.root := by
    intro reference hmem
    rcases hreferences reference hmem with hroot | ⟨id, operation, outcome, hpolled, -⟩
    · exact hroot
    · simp at hpolled
  have hone := hroot (.object ⟨1⟩) (by decide)
  have htwo := hroot (.object ⟨2⟩) (by decide)
  rw [← hone] at htwo
  revert htwo
  decide

end

end W9pt.Connection
