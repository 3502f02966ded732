import W9pt.Session.Invariant

/-!
# Handles and who holds them

The host hands out open instances, extended attributes and authentication handles in completions; the
session names them in later effects and ends the use of each by a releasing effect. While it is not
released, a handle sits in the fid table, or in the continuation of an operation that has set its fid
aside.

| here | there |
|---|---|
| `Effect.names`, `Effect.releases` | the handles in `FilesystemOperation` and `PolicyRequest` |
| `Completion.delivered` | the handles in `FilesystemResult` and `PolicyResult` |
| `Session.held` | `fids` and the originals in `pending_by_tag` |
| `stake` | held, or in a releasing effect, or about to be released |

`Move.stake_le` and `settled_stake_le` are the conservation law: no step makes a handle out of nothing
or copies one.
-/

namespace W9pt.Connection

open Lib Protocol Session

/-- A handle that has to be released. -/
inductive Handle where
  | open (handle : OpenHandle)
  | xattr (handle : XattrHandle)
  | auth (handle : AuthHandle)
deriving DecidableEq

/-! ## Naming -/

def handlesNamed (operation : FilesystemOperation) : List Handle :=
  (opensOf operation).map .open ++ (xattrsOf operation).map .xattr

def PolicyRequest.names : PolicyRequest → List Handle
  | startAuth .. => []
  | readAuth handle .. | writeAuth handle .. | clunkAuth handle => [.auth handle]
  | attach _ auth .. => auth.toList.map .auth

def PolicyRequest.releases : PolicyRequest → Bool
  | clunkAuth _ => true
  | startAuth .. | readAuth .. | writeAuth .. | attach .. => false

def Work.names : Work → List Handle
  | filesystem request => handlesNamed request.operation
  | policy request => request.names

/-- The work ends the use of the handles it names. -/
def Work.releases : Work → Bool
  | filesystem request => W9pt.Connection.releases request.operation
  | policy request => request.releases

def Effect.names : Effect → List Handle
  | filesystem _ request => handlesNamed request.operation
  | policy _ request => request.names
  | sendFrame _ | cancel .. | closeSession _ => []

def Effect.releases : Effect → Bool
  | filesystem _ request => W9pt.Connection.releases request.operation
  | policy _ request => request.releases
  | sendFrame _ | cancel .. | closeSession _ => false

def CleanupAction.names : CleanupAction → List Handle
  | cancel .. => []
  | filesystem request => handlesNamed request.operation
  | policy request => request.names

/-- Cleanup only cancels and releases. -/
def CleanupAction.Releasing : CleanupAction → Prop
  | cancel .. => True
  | filesystem request => W9pt.Connection.releases request.operation = true
  | policy request => request.releases = true

theorem Work.effect_names (work : Work) (id : OperationId) : (work.effect id).names = work.names := by
  cases work <;> rfl

theorem Work.effect_releases (work : Work) (id : OperationId) :
    (work.effect id).releases = work.releases := by
  cases work <;> rfl

theorem Work.action_names (work : Work) : work.action.names = work.names := by
  cases work <;> rfl

theorem Work.action_releasing (work : Work) : work.action.Releasing ↔ work.releases = true := by
  cases work <;> exact Iff.rfl

def released (effects : List Effect) : List Handle :=
  (effects.filter Effect.releases).flatMap Effect.names

theorem released_append (effects more : List Effect) :
    released (effects ++ more) = released effects ++ released more := by
  simp [released]

theorem released_of_not {effect : Effect} (h : effect.releases = false) : released [effect] = [] := by
  simp [released, h]

theorem released_singleton {effect : Effect} (h : effect.releases = true) :
    released [effect] = effect.names := by
  simp [released, h]

theorem mem_released {effects : List Effect} {h : Handle} :
    h ∈ released effects ↔ ∃ effect ∈ effects, effect.releases = true ∧ h ∈ effect.names := by
  simp [released, and_assoc]

/-! ## Delivering -/

def FilesystemResult.handles : FilesystemResult → List Handle
  | .opened result => [.open result.openInstance]
  | .created result => [.open result.openInstance]
  | .xattrWalked result => [.xattr result.xattr]
  | .xattrCreated xattr => [.xattr xattr]
  | _ => []

def PolicyResult.handles : PolicyResult → List Handle
  | .authStarted _ handle => [.auth handle]
  | _ => []

/-- The handles a completion hands to the session. -/
def Completion.delivered : Completion → List Handle
  | filesystem _ (.ok result) => FilesystemResult.handles result
  | policy _ (.ok result) => result.handles
  | filesystem _ (.error _) | policy _ (.error _) | cancelled .. => []

def delivered (events : List Event) : List Handle :=
  events.flatMap fun
    | .completed completion => completion.delivered
    | .polled _ => []

def polledEffects (events : List Event) : List Effect :=
  events.filterMap fun
    | .polled effect => some effect
    | .completed _ => none

theorem delivered_append (events more : List Event) :
    delivered (events ++ more) = delivered events ++ delivered more := by
  simp [delivered]

theorem polledEffects_append (events more : List Event) :
    polledEffects (events ++ more) = polledEffects events ++ polledEffects more := by
  simp [polledEffects]

theorem delivered_polled (effect : Option Effect) :
    delivered (effect.toList.map .polled) = [] := by
  cases effect <;> rfl

theorem polledEffects_polled (effect : Option Effect) :
    polledEffects (effect.toList.map .polled) = effect.toList := by
  cases effect <;> rfl

theorem delivered_completed (completion : Completion) :
    delivered [.completed completion] = completion.delivered := by
  simp [delivered]

theorem polledEffects_completed (events : List Event) (completion : Completion) :
    polledEffects (events ++ [.completed completion]) = polledEffects events := by
  simp [polledEffects]

/-! ## Holding -/

def ObjectFid.handles (object : ObjectFid) : List Handle :=
  object.openInstance.toList.map .open ++ object.xattrHandle.toList.map .xattr

def FidState.handles : FidState → List Handle
  | .pending => []
  | .auth _ handle => [.auth handle]
  | .object fid => fid.handles

/-- The handles that a continuation keeps for a fid it may restore. -/
def Continuation.handles (continuation : Continuation) : List Handle :=
  match continuation.restores with
  | some (_, original) => original.handles
  | none => []

/-- How often a handle sits in the fid table. -/
def Session.heldByFids (s : Session) (h : Handle) : Nat :=
  FinMap.total (fun state => state.handles.count h) s.fids

/-- How often a handle sits in a continuation. -/
def Session.heldByPending (s : Session) (h : Handle) : Nat :=
  FinMap.total (fun p => p.continuation.handles.count h) s.pendingByTag

/-- How often cleanup is going to release a handle. -/
def Session.promised (s : Session) (h : Handle) : Nat :=
  (s.cleanup.flatMap CleanupAction.names).count h

/-- How often a handle is held, or released, or about to be released, after the effects polled. -/
def stake (effects : List Effect) (s : Session) (h : Handle) : Nat :=
  s.heldByFids h + s.heldByPending h + (released (effects ++ s.effects)).count h + s.promised h

theorem ObjectFid.Unused.handles {object : ObjectFid} (h : object.Unused) : object.handles = [] := by
  simp [ObjectFid.handles, ObjectFid.xattrHandle, h.unopened, h.plain]

variable {continuation : Continuation}

theorem Continuation.handles_of_restores {fid : Fid} {original : ObjectFid}
    (h : continuation.restores = some (fid, original)) :
    continuation.handles = original.handles := by
  rw [Continuation.handles, h]

theorem Continuation.handles_of_lost (h : continuation.restores = none) :
    continuation.handles = [] := by
  rw [Continuation.handles, h]

theorem Continuation.handles_of_free (h : continuation.owned = none) :
    continuation.handles = [] := by
  apply Continuation.handles_of_lost
  cases hrestores : continuation.restores with
  | none => rfl
  | some restored =>
    rw [Continuation.owned_of_restores hrestores] at h
    cases h

theorem addWritten_handles (object : ObjectFid) (count : UInt32) :
    (addWritten object count).handles = object.handles := by
  rcases object with ⟨_, _, _, _, _, _ | ⟨_, _ | _⟩⟩ <;> rfl

/-- What releases a drained fid names the handles of the fid. -/
theorem cleanupOf_names (state : FidState) :
    (cleanupOf state).toList.flatMap CleanupAction.names = state.handles := by
  cases state <;> simp [cleanupOf, CleanupAction.names, FidState.handles, PolicyRequest.names,
    handlesNamed, opensOf, xattrsOf, ObjectFid.handles, ObjectFid.xattrHandle]

theorem cleanupOf_releasing {state : FidState} {action : CleanupAction}
    (h : action ∈ (cleanupOf state).toList) : action.Releasing := by
  cases state with
  | pending => simp [cleanupOf] at h
  | auth | object =>
    simp only [cleanupOf, Option.toList_some, List.mem_singleton] at h
    rw [h]
    rfl

/-! ## Conservation -/

section

variable {fresh : Session → Prop} {s s' s₁ : Session} {tag : Tag} (effects : List Effect) (h : Handle)

/-- Steps that touch neither fids, operations nor cleanup, and queue nothing that releases. -/
theorem stake_congr (fids : s'.fids = s.fids)
    (pending : s'.heldByPending h = s.heldByPending h)
    (queue : released s'.effects = released s.effects)
    (cleanup : s'.promised h = s.promised h) : stake effects s' h = stake effects s h := by
  rw [stake, stake, Session.heldByFids, fids, pending, cleanup, released_append, released_append,
    queue]
  rfl

theorem pushEffect_stake {effect : Effect} (quiet : effect.releases = false) :
    stake effects (s.pushEffect effect) h = stake effects s h := by
  refine stake_congr effects h rfl rfl ?_ rfl
  show released (s.effects ++ [effect]) = released s.effects
  rw [released_append, released_of_not quiet, List.append_nil]

theorem joinPending_stake {oldTag : Tag} {target : PendingOperation}
    (active : s.pendingByTag[oldTag]? = some target) :
    stake effects (s.joinPending tag oldTag target) h = stake effects s h :=
  stake_congr effects h rfl (FinMap.total_insert_of_eq active rfl) rfl rfl

theorem count_releases (order : HashOrder) (s : Session) :
    ((order.releases s).flatMap CleanupAction.names).count h = s.heldByFids h := by
  have hnames : (order.releases s).flatMap CleanupAction.names =
      (order.fids s.fids).flatMap fun entry => entry.2.handles := by
    rw [HashOrder.releases, List.flatMap_assoc]
    congr 1
    funext entry
    exact cleanupOf_names entry.2
  rw [hnames, List.count_flatMap, Session.heldByFids, FinMap.total]
  exact ((order.fids_perm _).map _).sum_eq

theorem releases_releasing {order : HashOrder} {action : CleanupAction}
    (hmem : action ∈ order.releases s) : action.Releasing := by
  obtain ⟨entry, -, hmem⟩ := List.mem_flatMap.1 hmem
  exact cleanupOf_releasing hmem

theorem heldByFids_empty (h : s.fids = ∅) (handle : Handle) : s.heldByFids handle = 0 := by
  rw [Session.heldByFids, h, FinMap.total_empty]

/-- Draining moves the handles of all fids into cleanup. -/
theorem drainFidsToCleanup_stake (order : HashOrder) (s : Session) :
    stake effects (s.drainFidsToCleanup order) h = stake effects s h := by
  have hpromised : (s.drainFidsToCleanup order).promised h = s.promised h + s.heldByFids h := by
    rw [drainFidsToCleanup_eq, Session.promised]
    simp only [List.flatMap_append, List.count_append, count_releases]
    rfl
  have hfids : (s.drainFidsToCleanup order).heldByFids h = 0 :=
    heldByFids_empty (by rw [drainFidsToCleanup_eq]) h
  have hpending : (s.drainFidsToCleanup order).heldByPending h = s.heldByPending h := by
    rw [drainFidsToCleanup_eq]
    rfl
  have heffects : (s.drainFidsToCleanup order).effects = s.effects := by
    rw [drainFidsToCleanup_eq]
  rw [stake, hpromised, hfids, hpending, heffects, stake]
  omega

theorem close_stake (order : HashOrder) (s : Session) (decoder : FrameDecoder)
    (reason : CloseReason) : stake effects (s.close order decoder reason) h = stake effects s h := by
  by_cases hstarted : s.cleanupStarted = true
  · rw [Session.close, startCleanup, if_pos hstarted]
    rfl
  · rw [Session.close, startCleanup, if_neg hstarted, drainFidsToCleanup_stake]
    refine stake_congr effects h rfl (FinMap.total_map fun _ _ => rfl) rfl ?_
    show List.count h ((s.cleanup ++ _).flatMap CleanupAction.names) = _
    rw [List.flatMap_append, List.count_append]
    refine Nat.add_eq_left.2 (List.count_eq_zero.2 fun hmem => ?_)
    obtain ⟨action, haction, hname⟩ := List.mem_flatMap.1 hmem
    obtain ⟨entry, -, hcancel⟩ := List.mem_filterMap.1 haction
    split at hcancel
    · cases hcancel
    · cases hcancel
      cases hname

theorem renegotiate_stake (order : HashOrder) (s : Session) (msize : UInt32) (version : Bytes) :
    stake effects (s.renegotiate order msize version) h + s.heldByPending h =
      stake effects s h := by
  have hpromised : (s.renegotiate order msize version).promised h =
      s.promised h + s.heldByFids h := by
    rw [Session.promised, renegotiate_cleanup]
    rw [List.flatMap_append, List.flatMap_append, List.count_append, List.count_append,
      count_releases, Session.promised]
    have hcancels : (((order.pending s.pendingByTag).map fun entry =>
        CleanupAction.cancel entry.2.operationId entry.2.kind).flatMap CleanupAction.names).count h =
          0 := by
      rw [List.flatMap_map]
      exact List.count_eq_zero.2 (by simp [CleanupAction.names])
    omega
  obtain ⟨cleanup, heq⟩ := renegotiate_eq order s msize version
  have hfids : (s.renegotiate order msize version).heldByFids h = 0 :=
    heldByFids_empty (by rw [heq]) h
  have hpending : (s.renegotiate order msize version).heldByPending h = 0 := by
    rw [heq]
    exact FinMap.total_empty _
  have heffects : (s.renegotiate order msize version).effects = s.effects := by rw [heq]
  rw [stake, hpromised, hfids, hpending, heffects, stake]
  omega

/-! ### Emitting -/

variable {fid : Fid}

theorem setFid_heldByFids {old : FidState} (new : FidState) (present : s.fids[fid]? = some old) :
    (s.setFid fid new).heldByFids h + old.handles.count h = new.handles.count h + s.heldByFids h :=
  FinMap.total_insert_add present

theorem setFid_heldByFids_le (s : Session) (fid : Fid) (new : FidState) :
    (s.setFid fid new).heldByFids h ≤ new.handles.count h + s.heldByFids h :=
  FinMap.total_insert_le

theorem claim_heldByFids (absent : fid ∉ s.fids) :
    (s.claim fid).heldByFids h = s.heldByFids h := by
  rw [Session.heldByFids, Session.claim, FinMap.total_insert absent]
  simp [FidState.handles, Session.heldByFids]

/-- A cloned fid holds nothing. -/
theorem clone_stake {newFid : Fid} {source : ObjectFid} (unused : source.Unused)
    (absent : newFid ∉ s.fids) :
    stake effects ((s.claim newFid).setFid newFid (.object source)) h = stake effects s h := by
  have hpresent : (s.claim newFid).fids[newFid]? = some .pending :=
    Std.ExtTreeMap.getElem?_insert_self
  have hset := setFid_heldByFids h (.object source) hpresent
  have hclaim := claim_heldByFids h absent
  simp only [FidState.handles, unused.handles, List.count_nil] at hset
  show _ + s.heldByPending h + (released (effects ++ s.effects)).count h + s.promised h = _
  rw [stake]
  omega

/-- An xattr fid has no open instance. -/
def ObjectFid.Exclusive (object : ObjectFid) : Prop := object.xattr.isSome → object.openInstance = none

variable {continuation : Continuation}

variable {object : ObjectFid} {operation : FilesystemOperation}

/-- What ends the use of a fid names no handle but its own, and all of them when there is one. -/
theorem ObjectFid.EndsBy.names (ends : object.EndsBy fid operation continuation) :
    W9pt.Connection.releases operation = true ∧ continuation.handles = [] ∧
    (handlesNamed operation).count h ≤ object.handles.count h ∧
    (object.Exclusive → handlesNamed operation = object.handles) := by
  cases ends with
  | released | aborted => exact ⟨rfl, rfl, Nat.le_refl _, fun _ => rfl⟩
  | committed held =>
    refine ⟨rfl, rfl, ?_, fun exclusive => ?_⟩
    · simp [handlesNamed, opensOf, xattrsOf, ObjectFid.handles, ObjectFid.xattrHandle, held]
    · simp [handlesNamed, opensOf, xattrsOf, ObjectFid.handles, ObjectFid.xattrHandle, held,
        exclusive (by rw [held]; rfl)]
  | removed plain =>
    have hnames : handlesNamed (.remove object.object object.openInstance none) = object.handles := by
      simp [handlesNamed, opensOf, xattrsOf, ObjectFid.handles, ObjectFid.xattrHandle, plain]
    exact ⟨rfl, rfl, Nat.le_of_eq (by rw [hnames]), fun _ => hnames⟩

/-- An operation that changes its fid keeps the handles of the fid in its continuation. -/
theorem ObjectFid.ChangesBy.handles (changes : object.ChangesBy fid operation continuation) :
    W9pt.Connection.releases operation = false ∧ continuation.handles = object.handles := by
  cases changes with
  | walked => exact ⟨rfl, Continuation.handles_of_restores (if_pos rfl)⟩
  | opened | created | xattrCreated | xattrWritten => exact ⟨rfl, rfl⟩

theorem ObjectFid.YieldsBy.handles {newFid : Fid}
    (yields : object.YieldsBy fid newFid operation continuation) :
    W9pt.Connection.releases operation = false ∧ continuation.handles = [] := by
  cases yields with
  | walked _ other => exact ⟨rfl, Continuation.handles_of_lost (if_neg (Ne.symm other))⟩
  | xattrWalked => exact ⟨rfl, rfl⟩

theorem released_work_of_not (work : Work) (quiet : work.releases = false) (id : OperationId) :
    released [work.effect id] = [] :=
  released_of_not (by rw [Work.effect_releases, quiet])

theorem released_work (work : Work) (releasing : work.releases = true) (id : OperationId) :
    released [work.effect id] = work.names := by
  rw [released_singleton (by rw [Work.effect_releases, releasing]), Work.effect_names]

def Session.Exclusive (s : Session) : Prop :=
  ∀ (fid : Fid) (object : ObjectFid), s.fids[fid]? = some (.object object) → object.Exclusive

variable {work : Work} {writeBytes : Nat}

/-- The handles of a reserved fid go to the continuation or are released. -/
theorem Decided.heldByFids {reservation : Reservation}
    (decided : Decided s (.emit reservation work continuation writeBytes))
    (reserved : reservation.reserve s = .ok s₁) (id : OperationId) :
    s₁.heldByFids h + continuation.handles.count h + (released [work.effect id]).count h ≤
      s.heldByFids h ∧ (s.Exclusive → s₁.heldByFids h + continuation.handles.count h +
      (released [work.effect id]).count h = s.heldByFids h) := by
  have hclaim : ∀ fid, fid ∉ s.fids → (Reservation.claim fid).reserve s = .ok s₁ →
      s₁.heldByFids h = s.heldByFids h := by
    intro fid absent hreserve
    unfold Reservation.reserve at hreserve
    cases hroom : Accounting.reserve s.accounting.fids 1 s.limits.maxFids .fids with
    | error e => simp only [hroom] at hreserve; cases hreserve
    | ok total =>
      simp only [hroom, Except.ok.injEq] at hreserve
      subst hreserve
      exact claim_heldByFids h absent
  cases decided with
  | operate _ _ _ keeps free =>
    cases reserved
    rw [Continuation.handles_of_free free, released_work_of_not (.filesystem ⟨_, _⟩) keeps]
    simp
  | pair _ _ _ _ _ _ _ keeps =>
    cases reserved
    rw [Continuation.handles_of_free rfl, released_work_of_not (.filesystem ⟨_, _⟩) keeps]
    simp
  | change present _ changes =>
    cases reserved
    obtain ⟨quiet, hhandles⟩ := changes.handles
    have hset := setFid_heldByFids h .pending present
    rw [hhandles, released_work_of_not (.filesystem ⟨_, _⟩) quiet]
    simp only [FidState.handles, List.count_nil] at hset ⊢
    omega
  | finish present _ ends =>
    cases reserved
    obtain ⟨releasing, hnone, hle, hexact⟩ := ends.names h
    have hset := setFid_heldByFids h .pending present
    rw [hnone, released_work (.filesystem ⟨_, _⟩) releasing]
    simp only [FidState.handles, List.count_nil, Work.names] at hset ⊢
    refine ⟨by omega, fun exclusive => ?_⟩
    rw [hexact (exclusive _ _ present)]
    omega
  | yield _ absent _ yields =>
    obtain ⟨quiet, hnone⟩ := yields.handles
    rw [hclaim _ absent reserved, hnone, released_work_of_not (.filesystem ⟨_, _⟩) quiet]
    simp
  | enrol absent admits =>
    rw [hclaim _ absent reserved]
    cases admits <;> simp [released, Work.effect, Effect.releases, PolicyRequest.releases,
      Continuation.handles, Continuation.restores]
  | authenticate _ authenticates =>
    cases reserved
    cases authenticates <;> simp [released, Work.effect, Effect.releases, PolicyRequest.releases,
      Continuation.handles, Continuation.restores]
  | dismiss present =>
    cases reserved
    have hset := setFid_heldByFids h .pending present
    rw [released_work (.policy (.clunkAuth _)) rfl]
    simp only [FidState.handles, List.count_nil, Work.names, PolicyRequest.names,
      Continuation.handles, Continuation.restores] at hset ⊢
    omega

theorem emitted_stake {id : OperationId} (inactive : tag ∉ s₁.pendingByTag) :
    stake effects (s₁.emitted tag id work continuation writeBytes) h =
      stake effects s₁ h + continuation.handles.count h + (released [work.effect id]).count h := by
  have hpending : (s₁.emitted tag id work continuation writeBytes).heldByPending h =
      continuation.handles.count h + s₁.heldByPending h := FinMap.total_insert inactive
  have hreleased : released (effects ++ (s₁.emitted tag id work continuation writeBytes).effects) =
      released (effects ++ s₁.effects) ++ released [work.effect id] := by
    rw [← released_append, List.append_assoc]
    rfl
  rw [stake, hpending, hreleased, List.count_append, stake]
  show s₁.heldByFids h + _ + _ + s₁.promised h = _
  omega

theorem emit_stake {reservation : Reservation} {id : OperationId} (inactive : s.Inactive tag)
    (decided : Decided s (.emit reservation work continuation writeBytes))
    (reserved : reservation.reserve s = .ok s₁) :
    stake effects (s₁.emitted tag id work continuation writeBytes) h ≤ stake effects s h ∧
    (s.Exclusive →
      stake effects (s₁.emitted tag id work continuation writeBytes) h = stake effects s h) := by
  obtain ⟨fids, count, hframe⟩ := (decided.reserved reserved).frame
  obtain ⟨hle, heq⟩ := decided.heldByFids h reserved id
  have hinactive : tag ∉ s₁.pendingByTag := by
    rw [hframe]
    exact inactive.1
  have hrest : stake effects s₁ h + s.heldByFids h = stake effects s h + s₁.heldByFids h := by
    have hpending : s₁.heldByPending h = s.heldByPending h := by rw [hframe]; rfl
    have hpromised : s₁.promised h = s.promised h := by rw [hframe]; rfl
    have hqueue : s₁.effects = s.effects := by rw [hframe]
    rw [stake, stake, hpending, hpromised, hqueue]
    omega
  rw [emitted_stake effects h hinactive]
  refine ⟨by omega, fun exclusive => ?_⟩
  have hexact := heq exclusive
  omega

/-! ### Settling -/

/-- **What becomes of a fid is what its continuation kept and what the completion delivers.** -/
theorem Outcome.heldByFids_le {completion : Completion}
    (outcome : Outcome s continuation completion s') :
    s'.heldByFids h ≤
      s.heldByFids h + continuation.handles.count h + completion.delivered.count h := by
  have hset : ∀ (fid : Fid) (state : FidState),
      state.handles.count h ≤ continuation.handles.count h + completion.delivered.count h →
      (s.setFid fid state).heldByFids h ≤
        s.heldByFids h + continuation.handles.count h + completion.delivered.count h := by
    intro fid state hstate
    have hle := setFid_heldByFids_le h s fid state
    omega
  cases outcome with
  | unowned => omega
  | restored restores =>
    refine hset _ _ ?_
    rw [Continuation.handles_of_restores restores]
    exact Nat.le_add_right _ _
  | @retired _ _ fid =>
    have hle : (s.retireFid fid).heldByFids h ≤ s.heldByFids h := by
      unfold Session.retireFid
      split
      · exact FinMap.total_erase_le
      · exact Nat.le_refl _
    omega
  | authenticated | opened | created | xattrWalked | xattrCreated =>
    exact hset _ _ (Nat.le_add_left _ _)
  | attached | walked => exact hset _ _ (Nat.zero_le _)
  | xattrWritten =>
    refine hset _ _ ?_
    rw [FidState.handles, addWritten_handles]
    exact Nat.le_add_right _ _

variable {p : PendingOperation}

theorem untrack_heldByPending (present : s.pendingByTag[tag]? = some p) :
    s.heldByPending h =
      p.continuation.handles.count h + (s.untrack p.operationId tag p).heldByPending h :=
  FinMap.total_erase present

/-- The stake after an operation was settled, by what its fid holds then. -/
theorem settled_stake (order : HashOrder) (completion : Completion)
    (present : s.pendingByTag[tag]? = some p) :
    stake effects (s.settled order tag p completion) h + s.heldByFids h +
        p.continuation.handles.count h =
      stake effects s h +
        ((s.untrack p.operationId tag p).settle p.continuation completion).2.heldByFids h := by
  obtain ⟨fids, count, hframe⟩ :=
    (settled_settle (s := s.untrack p.operationId tag p) p.continuation completion).frame
  have hdrained : stake effects (s.settled order tag p completion) h = stake effects
      ((s.untrack p.operationId tag p).settle p.continuation completion).2 h := by
    unfold Session.settled
    dsimp only
    split
    · exact drainFidsToCleanup_stake effects h order _
    · rfl
  have hpending := untrack_heldByPending h present
  rw [hdrained]
  generalize ((s.untrack p.operationId tag p).settle p.continuation completion).2 = s' at hframe ⊢
  have hpending' : s'.heldByPending h = (s.untrack p.operationId tag p).heldByPending h := by
    rw [hframe]
    rfl
  have hpromised : s'.promised h = s.promised h := by rw [hframe]; rfl
  have hqueue : s'.effects = s.effects := by rw [hframe]; rfl
  rw [stake, stake, hpending', hpromised, hqueue, hpending]
  omega

theorem settled_stake_le (order : HashOrder) (completion : Completion)
    (present : s.pendingByTag[tag]? = some p) :
    stake effects (s.settled order tag p completion) h ≤
      stake effects s h + completion.delivered.count h := by
  have hstake := settled_stake effects h order completion present
  have hle := (outcome_settle (s.untrack p.operationId tag p) p.continuation
    completion).heldByFids_le h
  have hsame : (s.untrack p.operationId tag p).heldByFids h = s.heldByFids h := rfl
  omega

/-- **No small step makes or copies a handle.** -/
theorem Move.stake_le (move : Move fresh s s') : stake effects s' h ≤ stake effects s h := by
  cases move with
  | decode | burn | joinFlush | dropFlush => exact Nat.le_refl _
  | frame | cancel => exact Nat.le_of_eq (pushEffect_stake effects h rfl)
  | clone _ _ unused absent => exact Nat.le_of_eq (clone_stake effects h unused absent)
  | emit _ inactive decided reserved => exact (emit_stake effects h inactive decided reserved).1
  | joinPending _ active =>
    exact Nat.le_of_eq (joinPending_stake effects h active)
  | close order decoder reason => exact Nat.le_of_eq (close_stake effects h order s decoder reason)
  | renegotiate order _ _ msize version =>
    have hstake := renegotiate_stake effects h order s msize version
    omega

end

end W9pt.Connection
