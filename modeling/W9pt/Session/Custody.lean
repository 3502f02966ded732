import W9pt.Session.Handles

/-!
# No handle is used after its release

Effects leave a session through two queues, the ordinary one and cleanup, and a fid can be set aside,
restored, cloned or drained in between. What keeps a released handle from being named again is that
its stake never exceeds one: a handle that an effect names is held by a fid, so it has not been
released and nothing is going to release it.
-/

namespace W9pt.Connection

open Lib Protocol Session

variable {fresh : Session → Prop} {permitted : HashOrder → Session → Call → Prop}
  {s s' s₁ : Session} {tag : Tag} {events : List Event}

/-! ## What an effect names is held -/

variable {h : Handle}

theorem count_pos_of_fid {fid : Fid} {state : FidState} (present : s.fids[fid]? = some state)
    (held : h ∈ state.handles) : 1 ≤ s.heldByFids h :=
  Nat.le_trans (List.count_pos_iff.2 held)
    (FinMap.le_total (f := fun state => state.handles.count h) present)

theorem ObjectFid.mem_handles {object : ObjectFid} {operation : FilesystemOperation}
    (opens : ∀ handle ∈ opensOf operation, object.openInstance = some handle)
    (xattrs : ∀ handle ∈ xattrsOf operation, object.xattrHandle = some handle)
    (named : h ∈ handlesNamed operation) : h ∈ object.handles := by
  rcases List.mem_append.1 named with hopen | hxattr
  · obtain ⟨handle, hmem, rfl⟩ := List.mem_map.1 hopen
    simp [ObjectFid.handles, opens handle hmem]
  · obtain ⟨handle, hmem, rfl⟩ := List.mem_map.1 hxattr
    simp [ObjectFid.handles, xattrs handle hmem]

theorem Decided.named_held {reservation : Reservation} {work : Work} {continuation : Continuation}
    {writeBytes : Nat} (decided : Decided s (.emit reservation work continuation writeBytes))
    (named : h ∈ work.names) : 1 ≤ s.heldByFids h := by
  cases decided with
  | operate present _ covers =>
    exact count_pos_of_fid present (ObjectFid.mem_handles covers.opens covers.xattrs named)
  | pair _ _ _ _ _ opens xattrs =>
    simp [Work.names, handlesNamed, opens, xattrs] at named
  | change present _ changes =>
    refine count_pos_of_fid present ?_
    cases changes with
    | xattrWritten held =>
      refine ObjectFid.mem_handles ?_ ?_ named
      · simp [opensOf]
      · simp [xattrsOf, ObjectFid.xattrHandle, held]
    | opened | created | xattrCreated | walked => cases named
  | @finish fid object operation continuation present _ ends =>
    obtain ⟨-, -, hle, -⟩ := ends.names h
    exact count_pos_of_fid present (List.count_pos_iff.1
      (Nat.lt_of_lt_of_le (List.count_pos_iff.2 named) hle))
  | yield _ _ _ yields => cases yields <;> cases named
  | enrol _ admits =>
    cases admits with
    | auth => cases named
    | attach held =>
      obtain ⟨handle, hmem, rfl⟩ := List.mem_map.1 named
      obtain ⟨afid, qid, present⟩ := held handle (Option.mem_toList.1 hmem)
      exact count_pos_of_fid present (List.mem_singleton_self _)
  | authenticate present authenticates =>
    refine count_pos_of_fid present ?_
    cases authenticates <;> exact named
  | dismiss present => exact count_pos_of_fid present named

/-! ## The invariant -/

/-- The later effect does not use what the earlier one released. -/
def Effect.Precedes (a b : Effect) : Prop :=
  a.releases = true → b.releases = false → ∀ h ∈ a.names, h ∉ b.names

theorem Effect.precedes_of_releases (a : Effect) {b : Effect} (h : b.releases = true) :
    a.Precedes b := by
  intro _ hb
  rw [h] at hb
  cases hb

theorem Effect.precedes_of_nameless (a : Effect) {b : Effect} (h : b.names = []) :
    a.Precedes b := by
  intro _ _ handle _
  simp [h]

/-- What holds of a session and its events, when the host hands out no handle twice. -/
structure Custody (events : List Event) (s : Session) : Prop where
  conserved : ∀ h, stake (polledEffects events) s h ≤ (delivered events).count h
  ordered : (polledEffects events ++ s.effects).Pairwise Effect.Precedes
  cleanup : ∀ action ∈ s.cleanup, action.Releasing

theorem pairwise_concat {R : Effect → Effect → Prop} {effects : List Effect} {effect : Effect}
    (h : effects.Pairwise R) (hlast : ∀ a ∈ effects, R a effect) :
    (effects ++ [effect]).Pairwise R := by
  refine List.pairwise_append.2 ⟨h, List.pairwise_singleton _ _, ?_⟩
  intro a ha b hb
  obtain rfl := List.mem_singleton.1 hb
  exact hlast a ha

theorem Custody.of_same (custody : Custody events s)
    (conserved : ∀ h, stake (polledEffects events) s' h ≤ stake (polledEffects events) s h)
    (effects : s'.effects = s.effects) (cleanup : ∀ action ∈ s'.cleanup, action.Releasing) :
    Custody events s' where
  conserved h := Nat.le_trans (conserved h) (custody.conserved h)
  ordered := by
    rw [effects]
    exact custody.ordered
  cleanup := cleanup

theorem Custody.of_push (custody : Custody events s) {effect : Effect}
    (conserved : ∀ h, stake (polledEffects events) s' h ≤ stake (polledEffects events) s h)
    (effects : s'.effects = s.effects ++ [effect]) (cleanup : s'.cleanup = s.cleanup)
    (precedes : ∀ a ∈ polledEffects events ++ s.effects, a.Precedes effect) :
    Custody events s' where
  conserved h := Nat.le_trans (conserved h) (custody.conserved h)
  ordered := by
    rw [effects, ← List.append_assoc]
    exact pairwise_concat custody.ordered precedes
  cleanup := cleanup ▸ custody.cleanup

/-- What a fid still holds has not been released. -/
theorem Custody.unreleased (custody : Custody events s) (distinct : (delivered events).Nodup)
    (held : 1 ≤ s.heldByFids h) : h ∉ released (polledEffects events ++ s.effects) := by
  intro hreleased
  have hconserved := custody.conserved h
  have hone := List.nodup_iff_count_le_one.1 distinct h
  have hpositive := List.count_pos_iff.2 hreleased
  simp only [stake] at hconserved
  omega

theorem close_cleanup_releasing (order : HashOrder) (s : Session) (decoder : FrameDecoder)
    (reason : CloseReason) (h : ∀ action ∈ s.cleanup, action.Releasing) :
    ∀ action ∈ (s.close order decoder reason).cleanup, action.Releasing := by
  intro action haction
  by_cases hstarted : s.cleanupStarted = true
  · rw [Session.close, startCleanup, if_pos hstarted] at haction
    exact h action haction
  · rw [Session.close, startCleanup_eq (by simpa using hstarted)] at haction
    rcases List.mem_append.1 haction with haction | hrelease
    · rcases List.mem_append.1 haction with hold | hcancel
      · exact h action hold
      · obtain ⟨entry, -, hcancel⟩ := List.mem_filterMap.1 hcancel
        split at hcancel
        · cases hcancel
        · cases hcancel
          trivial
    · exact releases_releasing hrelease

theorem renegotiate_cleanup_releasing (order : HashOrder) (s : Session) (msize : UInt32)
    (version : Bytes) (h : ∀ action ∈ s.cleanup, action.Releasing) :
    ∀ action ∈ (s.renegotiate order msize version).cleanup, action.Releasing := by
  intro action haction
  rw [renegotiate_cleanup] at haction
  rcases List.mem_append.1 haction with haction | hrelease
  · rcases List.mem_append.1 haction with hold | hcancel
    · exact h action hold
    · obtain ⟨entry, -, rfl⟩ := List.mem_map.1 hcancel
      trivial
  · exact releases_releasing hrelease

theorem Custody.move (custody : Custody events s) (distinct : (delivered events).Nodup)
    (move : Move fresh s s') : Custody events s' := by
  have hstake := fun h => move.stake_le (polledEffects events) h
  cases move with
  | decode | burn | clone | joinPending | joinFlush | dropFlush =>
    exact custody.of_same hstake rfl custody.cleanup
  | frame | cancel =>
    exact custody.of_push hstake rfl rfl fun a _ => a.precedes_of_nameless rfl
  | @emit _ _ reservation work continuation writeBytes id _ _ decided reserved =>
    obtain ⟨fids, count, rfl⟩ := (decided.reserved reserved).frame
    refine custody.of_push hstake rfl rfl fun a ha hreleases _ h hname hwork => ?_
    rw [Work.effect_names] at hwork
    refine custody.unreleased distinct (decided.named_held hwork) ?_
    exact mem_released.2 ⟨a, ha, hreleases, hname⟩
  | close order decoder reason =>
    exact custody.of_same hstake (close_effects order s decoder reason).1
      (close_cleanup_releasing order s decoder reason custody.cleanup)
  | renegotiate order _ _ msize version =>
    refine custody.of_same hstake ?_
      (renegotiate_cleanup_releasing order s msize version custody.cleanup)
    obtain ⟨cleanup, heq⟩ := renegotiate_eq order s msize version
    rw [heq]

theorem settled_cleanup_releasing (order : HashOrder) (tag : Tag) (p : PendingOperation)
    (completion : Completion) (h : ∀ action ∈ s.cleanup, action.Releasing) :
    ∀ action ∈ (s.settled order tag p completion).cleanup, action.Releasing := by
  obtain ⟨fids, count, hframe⟩ :=
    (settled_settle (s := s.untrack p.operationId tag p) p.continuation completion).frame
  unfold Session.settled
  dsimp only
  rw [hframe]
  intro action haction
  split at haction
  · rw [drainFidsToCleanup_eq] at haction
    rcases List.mem_append.1 haction with hold | hrelease
    · exact h action hold
    · exact releases_releasing hrelease
  · exact h action haction

theorem Custody.settle (custody : Custody events s) (order : HashOrder) {p : PendingOperation}
    (completion : Completion) (present : s.pendingByTag[tag]? = some p) :
    Custody (events ++ [.completed completion]) (s.settled order tag p completion) where
  conserved h := by
    have hstake := settled_stake_le (polledEffects events) h order completion present
    have hconserved := custody.conserved h
    rw [polledEffects_completed, delivered_append, List.count_append, delivered_completed]
    omega
  ordered := by
    rw [polledEffects_completed, (settled_effects order s tag p completion).1]
    exact custody.ordered
  cleanup := settled_cleanup_releasing order _ _ _ custody.cleanup

theorem Custody.forget (custody : Custody events s) (completion : Completion) :
    Custody (events ++ [.completed completion])
      { s with abandonedOperations := s.abandonedOperations.erase completion.operationId } where
  conserved h := by
    rw [polledEffects_completed, delivered_append, List.count_append]
    exact Nat.le_trans (custody.conserved h) (Nat.le_add_right _ _)
  ordered := by
    rw [polledEffects_completed]
    exact custody.ordered
  cleanup := custody.cleanup

/-! ## Polling -/

theorem pop_stake (effects queue : List Effect) (effect : Effect) (h : Handle)
    (head : s.effects = effect :: queue) :
    stake (effects ++ [effect]) (s.pop effect queue) h = stake effects s h := by
  rw [stake, stake, head, List.append_assoc]
  rfl

/-- The stake of a session whose first cleanup action was taken. -/
theorem taken_stake (s s' : Session) {action : CleanupAction} (effects : List Effect) (h : Handle)
    (head : s.cleanup = action :: s'.cleanup) (fids : s'.fids = s.fids)
    (pending : s'.pendingByTag = s.pendingByTag) (queue : s'.effects = s.effects) :
    stake effects s' h + action.names.count h = stake effects s h := by
  have hpromised : s.promised h = action.names.count h + s'.promised h := by
    rw [Session.promised, head, List.flatMap_cons, List.count_append, Session.promised]
  simp only [stake, Session.heldByFids, Session.heldByPending, fids, pending, queue, hpromised]
  omega

theorem handed_stake (s : Session) (effects : List Effect) (effect : Effect) (h : Handle)
    (idle : s.effects = []) :
    stake (effects ++ [effect]) s h = stake effects s h + (released [effect]).count h := by
  simp only [stake, idle, List.append_nil, released_append, List.count_append]
  omega

section

variable {effect : Option Effect} (step : PollStep s (effect, s'))

include step

/-- Polling keeps the stake, unless it drops a release that it has no identifier for. -/
theorem PollStep.stake_cases (effects : List Effect) (h : Handle)
    (cleanup : ∀ action ∈ s.cleanup, action.Releasing) :
    stake (effects ++ effect.toList) s' h = stake effects s h ∨
    (stake (effects ++ effect.toList) s' h ≤ stake effects s h ∧ s.effects = [] ∧
      (∃ work rest, s.cleanup = Work.action work :: rest) ∧ s.operationIds = none) := by
  cases step with
  | queued head => exact .inl (pop_stake effects _ _ h head)
  | @cancelled id kind rest idle head =>
    have htaken := taken_stake s { s with cleanup := rest } effects h head rfl rfl rfl
    have hhanded := handed_stake { s with cleanup := rest } effects (.cancel id kind) h idle
    rw [released_of_not rfl, List.count_nil] at hhanded
    exact .inl (hhanded.trans htaken)
  | @handed work rest id idle head next =>
    have htaken := taken_stake s ({ s with cleanup := rest }.handOut id work.expected) effects h head
      rfl rfl rfl
    have hhanded := handed_stake ({ s with cleanup := rest }.handOut id work.expected) effects
      (work.effect id) h idle
    have hreleasing : work.releases = true :=
      work.action_releasing.1 (cleanup _ (by rw [head]; exact List.mem_cons_self))
    rw [released_work work hreleasing] at hhanded
    rw [Work.action_names] at htaken
    exact .inl (hhanded.trans htaken)
  | @exhausted work rest idle head none =>
    have htaken := taken_stake s
      { s with cleanup := rest, terminalReason := some .resourceExhausted } effects h head rfl rfl rfl
    rw [Option.toList_none, List.append_nil]
    exact .inr ⟨by omega, idle, ⟨work, rest, head⟩, none⟩
  | @closed reason idle clean closing =>
    have hhanded := handed_stake { s with terminalEffectDelivered := true } effects
      (.closeSession reason) h idle
    rw [released_of_not rfl, List.count_nil] at hhanded
    exact .inl hhanded
  | idle =>
    rw [Option.toList_none, List.append_nil]
    exact .inl rfl

/-- Where a polled effect comes after all that was polled or queued before. -/
theorem PollStep.ordered (cleanup : ∀ action ∈ s.cleanup, action.Releasing) {effects : List Effect}
    (ordered : (effects ++ s.effects).Pairwise Effect.Precedes) :
    (effects ++ effect.toList ++ s'.effects).Pairwise Effect.Precedes := by
  cases step with
  | queued head =>
    rw [head] at ordered
    rw [Option.toList_some, List.append_assoc]
    exact ordered
  | cancelled idle head =>
    rw [idle, List.append_nil] at ordered
    show (effects ++ _ ++ s.effects).Pairwise _
    rw [idle, List.append_nil]
    exact pairwise_concat ordered fun a _ => a.precedes_of_nameless rfl
  | @handed work rest id idle head next =>
    have hreleasing : work.releases = true :=
      work.action_releasing.1 (cleanup _ (by rw [head]; exact List.mem_cons_self))
    rw [idle, List.append_nil] at ordered
    show (effects ++ _ ++ s.effects).Pairwise _
    rw [idle, List.append_nil]
    refine pairwise_concat ordered fun a _ => a.precedes_of_releases ?_
    rw [Work.effect_releases, hreleasing]
  | closed idle clean closing =>
    rw [idle, List.append_nil] at ordered
    show (effects ++ _ ++ s.effects).Pairwise _
    rw [idle, List.append_nil]
    exact pairwise_concat ordered fun a _ => a.precedes_of_nameless rfl
  | exhausted | idle =>
    rw [Option.toList_none, List.append_nil]
    exact ordered

theorem PollStep.cleanup_mem {action : CleanupAction} (h : action ∈ s'.cleanup) :
    action ∈ s.cleanup := by
  cases step with
  | queued | closed | idle => exact h
  | cancelled _ head | handed _ head | exhausted _ head =>
    rw [head]
    exact List.mem_cons_of_mem _ h

end

theorem Custody.poll (custody : Custody events s) {effect : Option Effect}
    (step : PollStep s (effect, s')) : Custody (events ++ effect.toList.map .polled) s' where
  conserved h := by
    rw [polledEffects_append, polledEffects_polled, delivered_append, delivered_polled,
      List.append_nil]
    refine Nat.le_trans ?_ (custody.conserved h)
    rcases step.stake_cases (polledEffects events) h custody.cleanup with heq | ⟨hle, -⟩
    · exact Nat.le_of_eq heq
    · exact hle
  ordered := by
    rw [polledEffects_append, polledEffects_polled]
    exact step.ordered custody.cleanup custody.ordered
  cleanup action haction := custody.cleanup action (step.cleanup_mem haction)

/-! ## Runs -/

theorem custody_new {limits : Limits} {context : SessionContext}
    (created : Session.new limits context = .ok s) : Custody [] s := by
  simp only [Session.new, bind_eq_ok, pure_eq_ok] at created
  obtain ⟨_, -, rfl⟩ := created
  refine ⟨fun h => ?_, List.Pairwise.nil, by simp [Session.initial]⟩
  have hfids : (Session.initial limits context).heldByFids h = 0 := FinMap.total_empty _
  have hpending : (Session.initial limits context).heldByPending h = 0 := FinMap.total_empty _
  rw [stake, hfids, hpending]
  exact Nat.le_refl _

/-- With no handle released twice, order among releases needs no separate proof. -/
theorem pairwise_of_precedes {effects : List Effect} (ordered : effects.Pairwise Effect.Precedes)
    (once : (released effects).Nodup) :
    effects.Pairwise fun a b => a.releases = true → ∀ h ∈ a.names, h ∉ b.names := by
  induction effects with
  | nil => exact .nil
  | cons a rest ih =>
    obtain ⟨hfirst, hrest⟩ := List.pairwise_cons.1 ordered
    rw [← List.singleton_append, released_append] at once
    obtain ⟨-, honce, hdisjoint⟩ := List.nodup_append.1 once
    refine List.pairwise_cons.2 ⟨fun b hb hreleases h hname hlater => ?_, ih hrest honce⟩
    cases hb' : b.releases with
    | false => exact hfirst b hb hreleases hb' h hname hlater
    | true =>
      have ha : h ∈ released [a] := mem_released.2 ⟨a, List.mem_singleton_self a, hreleases, hname⟩
      exact hdisjoint h ha h (mem_released.2 ⟨b, hb, hb', hlater⟩) rfl

theorem survives_custody : Survives (fun _ => True) (fun _ _ _ => True)
    fun events s => (delivered events).Nodup → Custody events s where
  renews _ := renews_always _ _ _
  new created _ := custody_new created
  move _ invariant step distinct := (invariant distinct).move distinct step
  settle order _ invariant active _ _ _ distinct := by
    rw [delivered_append] at distinct
    exact (invariant distinct.of_append_left).settle order _ active
  forget _ invariant _ _ distinct := by
    rw [delivered_append] at distinct
    exact (invariant distinct.of_append_left).forget _
  poll _ invariant step _ distinct := by
    rw [delivered_append] at distinct
    exact (invariant distinct.of_append_left).poll step

/-- **No use after release.** When the host hands out no handle twice, then no effect names a handle
that an effect polled before it released, and no handle is released twice. -/
theorem no_use_after_release (events : List Event) (s : Session)
    (trace : Trace (fun _ _ _ => True) events s) (distinct : (delivered events).Nodup) :
    (polledEffects events).Pairwise (fun a b => a.releases = true → ∀ h ∈ a.names, h ∉ b.names) ∧
    (released (polledEffects events)).Nodup := by
  have custody := trace.invariant survives_custody distinct
  have honce : (released (polledEffects events)).Nodup := by
    rw [List.nodup_iff_count_le_one]
    intro h
    have hconserved := custody.conserved h
    have hone := List.nodup_iff_count_le_one.1 distinct h
    simp only [stake, released_append, List.count_append] at hconserved
    omega
  exact ⟨pairwise_of_precedes (List.pairwise_append.1 custody.ordered).1 honce, honce⟩

/-- `Tauth` of fid 1 under tag 1. -/
def authFrame : Bytes := [19, 0, 0, 0, 102, 1, 0, 1, 0, 0, 0, 0, 0, 0, 0, 255, 255, 255, 255]

/-- `Tclunk` of fid 1 under tag 1. -/
def clunkFrame : Bytes := [11, 0, 0, 0, 120, 1, 0, 1, 0, 0, 0]

/-- A client starts to authenticate and gives up. -/
def authRun : List Call :=
  [.receiveFrame versionFrame, .pollEffect,
    .receiveFrame authFrame, .pollEffect, .complete (.policy 1 (.ok (.authStarted ⟨0, 0, 1⟩ ⟨7⟩))),
    .pollEffect, .receiveFrame clunkFrame, .pollEffect]

theorem no_use_after_release_authRun :
    released (polledEffects (narrowSession.eventsOfRun .sorted authRun)) = [.auth ⟨7⟩] ∧
    (released (polledEffects (narrowSession.eventsOfRun .sorted authRun))).Nodup := by
  have hcreated : Session.new narrowLimits ⟨⟨1⟩, none⟩ = .ok narrowSession := rfl
  have htrace := Trace.of_new hcreated (along_always .sorted narrowSession authRun)
  have hdelivered : delivered (narrowSession.eventsOfRun .sorted authRun) = [.auth ⟨7⟩] := by
    rfl
  refine ⟨by rfl, (no_use_after_release _ _ htrace ?_).2⟩
  rw [hdelivered]
  exact List.nodup_singleton _

end W9pt.Connection
