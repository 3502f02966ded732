import W9pt.Session.Custody

/-!
# When every handle is released

A drained session has released every handle it was given, each once, provided that it never
renegotiates while an operation that delivers or keeps a handle is outstanding, and never runs out of
identifiers while it cleans up. Otherwise a handle is lost: `reset_for_version` drops the continuation
that would install or restore it, and the later completion is discarded; `cleanup_effect` drops the
release it has no identifier for.

In these runs the stake of `Handles.lean` is not only bounded by the number of deliveries but equal to
it, and a drained session holds nothing.
-/

namespace W9pt.Connection

open Lib Protocol Session

variable {fresh : Session → Prop} {s s' s₁ : Session} {tag : Tag} {events : List Event}

/-! ## Operations that deliver handles -/

/-- A successful completion of this kind hands over a handle. -/
def ExpectedCompletion.delivers : ExpectedCompletion → Bool
  | .filesystem .opened | .filesystem .created | .filesystem .xattrWalked
  | .filesystem .xattrCreated | .policy .authStarted => true
  | _ => false

theorem delivers_expectedResult (operation : FilesystemOperation) :
    (ExpectedCompletion.filesystem operation.expectedResult).delivers = yieldsHandle operation := by
  cases operation <;> rfl

/-- The results that a continuation installs as a new handle. -/
def Continuation.awaits : Continuation → Option ExpectedCompletion
  | .authStart _ => some (.policy .authStarted)
  | .open .. => some (.filesystem .opened)
  | .create .. => some (.filesystem .created)
  | .xattrWalk .. => some (.filesystem .xattrWalked)
  | .xattrCreate .. => some (.filesystem .xattrCreated)
  | _ => none

variable {expected : ExpectedCompletion} {completion : Completion}

section

variable (accepts : expected.validate completion = .ok ())

include accepts

theorem accepts_of_validate : expected.accepts completion = true :=
  ensure_eq_ok.1 accepts

/-- A completion that delivers is a success of the expected kind. -/
theorem success_of_delivered (hdelivered : completion.delivered ≠ []) :
    (∃ id result, completion = .filesystem id (.ok result) ∧ expected = .filesystem result.kind) ∨
    ∃ id result, completion = .policy id (.ok result) ∧ expected = .policy result.kind := by
  have haccepts := accepts_of_validate accepts
  rcases completion with ⟨id, _ | result⟩ | ⟨id, _ | result⟩ | _
  · exact absurd rfl hdelivered
  · cases expected with
    | policy => cases haccepts
    | filesystem kind => exact .inl ⟨id, result, rfl, congrArg _ (eq_of_beq haccepts)⟩
  · exact absurd rfl hdelivered
  · cases expected with
    | filesystem => cases haccepts
    | policy kind => exact .inr ⟨id, result, rfl, congrArg _ (eq_of_beq haccepts)⟩
  · exact absurd rfl hdelivered

theorem delivers_of_accepts (hdelivered : completion.delivered ≠ []) :
    expected.delivers = true := by
  rcases success_of_delivered accepts hdelivered with
    ⟨id, result, rfl, rfl⟩ | ⟨id, result, rfl, rfl⟩
  · cases result <;> first | rfl | exact absurd rfl hdelivered
  · cases result <;> first | rfl | exact absurd rfl hdelivered

end

/-- The continuation of an operation fits what it expects: a delivered handle is installed, and only
an xattr write keeps handles while it runs. -/
structure PendingOperation.Suits (p : PendingOperation) : Prop where
  awaited : p.expected.delivers = true → p.continuation.awaits = some p.expected
  idle : (∀ fid original requested, p.continuation ≠ .xattrWrite fid original requested) →
    p.continuation.handles = []
  exclusive : ∀ fid original, p.continuation.restores = some (fid, original) → original.Exclusive

variable {object : ObjectFid}

theorem ObjectFid.Unused.exclusive (unused : object.Unused) :
    object.Exclusive := fun _ => unused.unopened

variable {p : PendingOperation}

theorem suits_of_unused {fid : Fid} (unused : object.Unused)
    (restores : p.continuation.restores = some (fid, object))
    (awaited : p.expected.delivers = true → p.continuation.awaits = some p.expected) : p.Suits where
  awaited := awaited
  idle _ := by rw [Continuation.handles_of_restores restores, unused.handles]
  exclusive _ _ h := by
    rw [restores] at h
    cases h
    exact unused.exclusive

theorem suits_of_lost (lost : p.continuation.restores = none)
    (awaited : p.expected.delivers = true → p.continuation.awaits = some p.expected) : p.Suits where
  awaited := awaited
  idle _ := Continuation.handles_of_lost lost
  exclusive _ _ h := by
    rw [lost] at h
    cases h

variable {continuation : Continuation}

/-- Every emitted operation suits its continuation. -/
theorem Decided.suits {reservation : Reservation} {work : Work} {writeBytes : Nat}
    (decided : Decided s (.emit reservation work continuation writeBytes)) (exclusive : s.Exclusive)
    (id : OperationId) : (work.pending id continuation writeBytes).Suits := by
  have hquiet : ∀ {operation : FilesystemOperation} {context : RequestContext},
      yieldsHandle operation = false → ((Work.filesystem ⟨context, operation⟩).pending id
        continuation writeBytes).expected.delivers = true →
          continuation.awaits = some (.filesystem operation.expectedResult) := by
    intro operation context quiet hdelivers
    rw [Work.pending, Work.expected, delivers_expectedResult, quiet] at hdelivers
    cases hdelivers
  cases decided with
  | operate _ _ _ _ free quiet =>
    refine suits_of_lost ?_ (hquiet quiet)
    cases hrestores : continuation.restores with
    | none => exact hrestores
    | some restored =>
      rw [Continuation.owned_of_restores hrestores] at free
      cases free
  | pair _ _ _ _ _ _ _ _ quiet => exact suits_of_lost rfl (hquiet quiet)
  | @change fid object operation _ _ present _ changes =>
    cases changes with
    | opened unused => exact suits_of_unused unused rfl fun _ => rfl
    | created unused => exact suits_of_unused unused rfl fun _ => rfl
    | xattrCreated unused => exact suits_of_unused unused rfl fun _ => rfl
    | walked unused => exact suits_of_unused unused (if_pos rfl) nofun
    | xattrWritten held =>
      refine ⟨nofun, fun h => absurd rfl (h _ _ _), fun _ _ h => ?_⟩
      cases h
      exact exclusive _ _ present
  | finish _ _ ends => cases ends <;> exact suits_of_lost rfl nofun
  | yield _ _ _ yields =>
    cases yields with
    | walked _ other => exact suits_of_lost (if_neg (Ne.symm other)) nofun
    | xattrWalked => exact suits_of_lost rfl fun _ => rfl
  | enrol _ admits =>
    cases admits with
    | auth => exact suits_of_lost rfl fun _ => rfl
    | attach => exact suits_of_lost rfl nofun
  | authenticate _ authenticates => cases authenticates <;> exact suits_of_lost rfl nofun
  | dismiss => exact suits_of_lost rfl nofun

/-! ## Settling loses nothing -/

section

variable (h : Handle)

/-- The fid is reserved, or was drained while its operation ran. -/
def Session.Vacant (s : Session) (fid : Fid) : Prop :=
  ∀ state, s.fids[fid]? = some state → state = .pending

theorem setFid_heldByFids_of_vacant {fid : Fid} (vacant : s.Vacant fid) (state : FidState) :
    (s.setFid fid state).heldByFids h = state.handles.count h + s.heldByFids h := by
  cases hfid : s.fids[fid]? with
  | none =>
    refine FinMap.total_insert ?_
    rw [Std.ExtTreeMap.mem_iff_isSome_getElem?, hfid]
    simp
  | some old =>
    have hset := setFid_heldByFids h state hfid
    rw [vacant old hfid, FidState.handles, List.count_nil] at hset
    exact hset

theorem retireFid_heldByFids_of_vacant {fid : Fid} (vacant : s.Vacant fid) :
    (s.retireFid fid).heldByFids h = s.heldByFids h := by
  unfold Session.retireFid
  split
  · rename_i hmem
    obtain ⟨old, hfid⟩ := Option.isSome_iff_exists.1
      (Std.ExtTreeMap.mem_iff_isSome_getElem?.1 hmem)
    have herase : s.heldByFids h = old.handles.count h +
        FinMap.total (fun state => state.handles.count h) (s.fids.erase fid) :=
      FinMap.total_erase hfid
    rw [vacant old hfid, FidState.handles, List.count_nil, Nat.zero_add] at herase
    exact herase.symm
  · rfl

/-- A delivered handle ends up in the fid. -/
theorem settle_awaited (s : Session) (suits : p.Suits)
    (accepts : p.expected.validate completion = .ok ()) (hdelivered : completion.delivered ≠ []) :
    p.continuation.handles = [] ∧ ∃ fid state, p.continuation.owned = some fid ∧
      (s.settle p.continuation completion).2 = s.setFid fid state ∧
      state.handles = completion.delivered := by
  have hawaits := suits.awaited (delivers_of_accepts accepts hdelivered)
  have hidle : p.continuation.handles = [] := suits.idle fun fid original requested heq => by
    rw [heq] at hawaits
    cases hawaits
  refine ⟨hidle, ?_⟩
  -- the completion is of the awaited kind, so the continuation installs it
  generalize p.continuation = continuation at hawaits
  rcases success_of_delivered accepts hdelivered with
    ⟨id, result, rfl, hexpected⟩ | ⟨id, result, rfl, hexpected⟩
  · rw [hexpected] at hawaits
    cases result with
    | opened result =>
      cases continuation <;> cases hawaits
      exact ⟨_, _, rfl, rfl, rfl⟩
    | created result =>
      cases continuation <;> cases hawaits
      exact ⟨_, _, rfl, rfl, rfl⟩
    | xattrWalked result =>
      cases continuation <;> cases hawaits
      exact ⟨_, _, rfl, rfl, rfl⟩
    | xattrCreated xattr =>
      cases continuation <;> cases hawaits
      exact ⟨_, _, rfl, rfl, rfl⟩
    | _ => exact absurd rfl hdelivered
  · rw [hexpected] at hawaits
    cases result with
    | authStarted qid handle =>
      cases continuation <;> cases hawaits
      exact ⟨_, _, rfl, rfl, rfl⟩
    | _ => exact absurd rfl hdelivered

/-- **A settled fid holds what its continuation kept and what was delivered.** -/
theorem settle_heldByFids (suits : p.Suits) (accepts : p.expected.validate completion = .ok ())
    (vacant : ∀ fid, p.continuation.owned = some fid → s.Vacant fid) :
    (s.settle p.continuation completion).2.heldByFids h =
      s.heldByFids h + p.continuation.handles.count h + completion.delivered.count h := by
  by_cases hdelivered : completion.delivered = []
  · have hset : ∀ fid state, p.continuation.owned = some fid →
        state.handles.count h = p.continuation.handles.count h →
        (s.setFid fid state).heldByFids h = s.heldByFids h + p.continuation.handles.count h +
          completion.delivered.count h := by
      intro fid state howned hsame
      rw [setFid_heldByFids_of_vacant h (vacant fid howned), hsame, hdelivered]
      simp [Nat.add_comm]
    have hidle := suits.idle
    have houtcome := outcome_settle s p.continuation completion
    generalize (s.settle p.continuation completion).2 = s' at houtcome ⊢
    generalize p.continuation = continuation at houtcome hset vacant hidle ⊢
    cases houtcome with
    | unowned free => rw [Continuation.handles_of_free free, hdelivered]; rfl
    | restored restores =>
      refine hset _ _ (Continuation.owned_of_restores restores) ?_
      rw [Continuation.handles_of_restores restores]
      rfl
    | retired owned lost =>
      rw [retireFid_heldByFids_of_vacant h (vacant _ owned), Continuation.handles_of_lost lost,
        hdelivered]
      rfl
    | authenticated | opened | created | xattrWalked | xattrCreated => cases hdelivered
    | attached => exact hset _ _ rfl rfl
    | walked =>
      refine hset _ _ rfl ?_
      rw [hidle (by simp)]
      rfl
    | xattrWritten =>
      refine hset _ _ rfl ?_
      rw [FidState.handles, addWritten_handles]
      rfl
  · obtain ⟨hnone, fid, state, howned, hsettle, hstate⟩ := settle_awaited s suits accepts hdelivered
    rw [hsettle, setFid_heldByFids_of_vacant h (vacant fid howned), hstate, hnone, List.count_nil]
    omega

end

/-! ## The session part of the invariant -/

/-- No outstanding operation delivers or keeps a handle. -/
def Session.Unencumbered (s : Session) : Prop :=
  ∀ (tag : Tag) (p : PendingOperation), s.pendingByTag[tag]? = some p →
    p.expected.delivers = false ∧ p.continuation.handles = []

/-- What a session must keep in order to lose no handle. -/
structure Sound (s : Session) : Prop where
  exclusive : s.Exclusive
  suited : ∀ (tag : Tag) (p : PendingOperation), s.pendingByTag[tag]? = some p → p.Suits
  forgotten : ∀ (id : OperationId) (expected : ExpectedCompletion),
    s.abandonedOperations[id]? = some expected → expected.delivers = false
  cleanup : ∀ action ∈ s.cleanup, action.Releasing
  closing : s.terminalReason.isSome = true → s.cleanupStarted = true

theorem exclusive_setFid (exclusive : s.Exclusive) {fid : Fid} {state : FidState}
    (hstate : ∀ object, state = .object object → object.Exclusive) : (s.setFid fid state).Exclusive := by
  intro f object hobject
  simp only [Session.setFid, Std.ExtTreeMap.getElem?_insert, Std.compare_eq_iff_eq] at hobject
  split at hobject
  · exact hstate object (Option.some.inj hobject)
  · exact exclusive f object hobject

theorem exclusive_retireFid (exclusive : s.Exclusive) (fid : Fid) : (s.retireFid fid).Exclusive := by
  unfold Session.retireFid
  split
  · intro f object hobject
    simp only [Std.ExtTreeMap.getElem?_erase] at hobject
    split at hobject
    · cases hobject
    · exact exclusive f object hobject
  · exact exclusive

theorem exclusive_of_empty (h : s.fids = ∅) : s.Exclusive := by
  intro fid object hobject
  rw [h] at hobject
  simp at hobject

theorem Reserved.exclusive {fid : Option Fid} (reserved : Reserved s fid s₁)
    (exclusive : s.Exclusive) : s₁.Exclusive := by
  cases reserved with
  | nothing => exact exclusive
  | claimed | taken => exact exclusive_setFid (s := s) exclusive nofun

theorem addWritten_exclusive (exclusive : object.Exclusive) (count : UInt32) :
    (addWritten object count).Exclusive := by
  rcases object with ⟨_, _, _, _, _, _ | ⟨_, _ | _⟩⟩
  · exact exclusive
  · exact exclusive
  · exact fun _ => exclusive rfl

theorem Outcome.exclusive (outcome : Outcome s continuation completion s') (exclusive : s.Exclusive)
    (restores : ∀ fid original, continuation.restores = some (fid, original) → original.Exclusive) :
    s'.Exclusive := by
  cases outcome with
  | unowned => exact exclusive
  | restored hrestores =>
    refine exclusive_setFid exclusive fun object hobject => ?_
    cases hobject
    exact restores _ _ hrestores
  | retired => exact exclusive_retireFid exclusive _
  | authenticated => exact exclusive_setFid exclusive nofun
  | attached | walked | opened | created | xattrWalked | xattrCreated =>
    refine exclusive_setFid exclusive fun object hobject => ?_
    cases hobject
    simp [ObjectFid.Exclusive, Session.attachedFid, ObjectFid.walkedTo, ObjectFid.openedAs,
      ObjectFid.createdAs, ObjectFid.withXattr]
  | xattrWritten =>
    refine exclusive_setFid exclusive fun object hobject => ?_
    cases hobject
    exact addWritten_exclusive (restores _ _ rfl) _

theorem Work.delivers_of_releases {work : Work} (releasing : work.releases = true) :
    work.expected.delivers = false := by
  cases work with
  | filesystem request =>
    obtain ⟨context, operation⟩ := request
    cases operation <;> first | rfl | cases releasing
  | policy request => cases request <;> first | rfl | cases releasing

theorem Sound.move (sound : Sound s) (move : Move Session.Unencumbered s s') : Sound s' := by
  cases move with
  | decode | frame | burn | cancel | joinFlush | dropFlush =>
    exact ⟨sound.exclusive, sound.suited, sound.forgotten, sound.cleanup, sound.closing⟩
  | @clone fid newFid source _ _ unused =>
    refine ⟨?_, sound.suited, sound.forgotten, sound.cleanup, sound.closing⟩
    refine exclusive_setFid (s := s.claim newFid) (exclusive_setFid (s := s) sound.exclusive nofun)
      fun object hobject => ?_
    cases hobject
    exact unused.exclusive
  | @emit s₁ t reservation work continuation writeBytes id _ _ decided reserved =>
    have hreserved := decided.reserved reserved
    have hexclusive := hreserved.exclusive sound.exclusive
    obtain ⟨fids, count, rfl⟩ := hreserved.frame
    refine ⟨hexclusive, fun tag p hp => ?_, sound.forgotten, sound.cleanup, sound.closing⟩
    simp only [Session.emitted, Session.track, Std.ExtTreeMap.getElem?_insert,
      Std.compare_eq_iff_eq] at hp
    split at hp
    · cases hp
      exact decided.suits sound.exclusive id
    · exact sound.suited tag p hp
  | @joinPending t oldTag target _ active =>
    refine ⟨sound.exclusive, fun tag p hp => ?_, sound.forgotten, sound.cleanup, sound.closing⟩
    simp only [Session.joinPending, Std.ExtTreeMap.getElem?_insert, Std.compare_eq_iff_eq] at hp
    split at hp
    · cases hp
      have hsuits := sound.suited oldTag target active
      exact ⟨hsuits.awaited, hsuits.idle, hsuits.exclusive⟩
    · exact sound.suited tag p hp
  | close order decoder reason =>
    have hcleanup := close_cleanup_releasing order s decoder reason sound.cleanup
    by_cases hstarted : s.cleanupStarted = true
    · rw [Session.close, startCleanup, if_pos hstarted] at hcleanup ⊢
      exact ⟨sound.exclusive, sound.suited, sound.forgotten, hcleanup, fun _ => hstarted⟩
    · rw [Session.close, startCleanup_eq (by simpa using hstarted)] at hcleanup ⊢
      refine ⟨exclusive_of_empty rfl, fun tag p hp => ?_, sound.forgotten, hcleanup, fun _ => rfl⟩
      rw [Std.ExtTreeMap.getElem?_map] at hp
      obtain ⟨q, hq, rfl⟩ := Option.map_eq_some_iff.1 hp
      have hsuits := sound.suited tag q hq
      exact ⟨hsuits.awaited, hsuits.idle, hsuits.exclusive⟩
  | renegotiate order active renews msize version =>
    have hcleanup := renegotiate_cleanup_releasing order s msize version sound.cleanup
    obtain ⟨cleanup, heq⟩ := renegotiate_eq order s msize version
    rw [heq] at hcleanup ⊢
    refine ⟨exclusive_of_empty rfl, fun tag p hp => ?_, fun id expected hid => ?_, hcleanup,
      sound.closing⟩
    · simp at hp
    · rcases getElem?_abandoned hid with hold | ⟨tag, p, hp, -, rfl⟩
      · exact sound.forgotten id expected hold
      · exact (renews tag p hp).1

theorem Sound.settle (sound : Sound s) (order : HashOrder)
    (completion : Completion) (present : s.pendingByTag[tag]? = some p) :
    Sound (s.settled order tag p completion) := by
  have hcleanup := settled_cleanup_releasing order tag p completion sound.cleanup
  have hexclusive : ((s.untrack p.operationId tag p).settle p.continuation completion).2.Exclusive :=
    (outcome_settle _ _ _).exclusive sound.exclusive (sound.suited tag p present).exclusive
  obtain ⟨fids, count, hframe⟩ :=
    (settled_settle (s := s.untrack p.operationId tag p) p.continuation completion).frame
  have hsuited : ∀ (t : Tag) (q : PendingOperation),
      (s.pendingByTag.erase tag)[t]? = some q → q.Suits := by
    intro t q hq
    rw [Std.ExtTreeMap.getElem?_erase] at hq
    split at hq
    · cases hq
    · exact sound.suited t q hq
  unfold Session.settled at hcleanup ⊢
  dsimp only at hcleanup ⊢
  rw [hframe] at hcleanup hexclusive ⊢
  split at hcleanup
  · rename_i hclosing
    rw [drainFidsToCleanup_eq] at hcleanup
    rw [if_pos hclosing, drainFidsToCleanup_eq]
    exact ⟨exclusive_of_empty rfl, hsuited, sound.forgotten, hcleanup, sound.closing⟩
  · rename_i hactive
    rw [if_neg hactive]
    exact ⟨hexclusive, hsuited, sound.forgotten, hcleanup, sound.closing⟩

theorem Sound.forget (sound : Sound s) (id : OperationId) :
    Sound { s with abandonedOperations := s.abandonedOperations.erase id } := by
  refine ⟨sound.exclusive, sound.suited, fun id' expected hid => ?_, sound.cleanup, sound.closing⟩
  rw [Std.ExtTreeMap.getElem?_erase] at hid
  split at hid
  · cases hid
  · exact sound.forgotten id' expected hid

/-- Whenever cleanup hands out work, there is an identifier for it. -/
def Session.Supplied (s : Session) : Prop :=
  s.effects = [] → ∀ (work : Work) (cleanup : List CleanupAction), s.cleanup = work.action :: cleanup →
    s.operationIds.isSome = true

theorem Sound.poll (sound : Sound s) {effect : Option Effect} (step : PollStep s (effect, s'))
    (supplied : s.Supplied) : Sound s' := by
  have hcleanup : ∀ action ∈ s'.cleanup, action.Releasing :=
    fun action haction => sound.cleanup action (step.cleanup_mem haction)
  cases step with
  | queued | cancelled | closed | idle =>
    exact ⟨sound.exclusive, sound.suited, sound.forgotten, hcleanup, sound.closing⟩
  | @handed work rest id idle head next =>
    refine ⟨sound.exclusive, sound.suited, fun id' expected hid => ?_, hcleanup, sound.closing⟩
    have hreleasing : work.releases = true :=
      work.action_releasing.1 (sound.cleanup _ (by rw [head]; exact List.mem_cons_self))
    simp only [Session.handOut, Std.ExtTreeMap.getElem?_insert, Std.compare_eq_iff_eq] at hid
    split at hid
    · cases hid
      exact work.delivers_of_releases hreleasing
    · exact sound.forgotten id' expected hid
  | exhausted idle head none =>
    have hsome := supplied idle _ _ head
    rw [none] at hsome
    cases hsome

/-! ## The run part of the invariant -/

/-- The handles delivered are exactly those at stake, and no release precedes its delivery. -/
structure Kept (events : List Event) (s : Session) : Prop where
  sound : Sound s
  balanced : ∀ h, stake (polledEffects events) s h = (delivered events).count h
  timely : ∀ past, past <+: events → ∀ h,
    (released (polledEffects past)).count h ≤ (delivered past).count h

theorem stake_polled_le (effects : List Effect) (s : Session) (h : Handle) :
    (released effects).count h ≤ stake effects s h := by
  rw [stake, released_append, List.count_append]
  omega

/-- A run that goes on with more events. -/
theorem Kept.extend {more : List Event} (kept : Kept events s) (sound : Sound s')
    (one : more.length ≤ 1)
    (balanced : ∀ h, stake (polledEffects (events ++ more)) s' h = (delivered (events ++ more)).count h) :
    Kept (events ++ more) s' := by
  refine ⟨sound, balanced, fun past hpast h => ?_⟩
  have hnow : (released (polledEffects (events ++ more))).count h ≤
      (delivered (events ++ more)).count h := balanced h ▸ stake_polled_le _ s' h
  rcases more with _ | ⟨event, _ | ⟨next, rest⟩⟩
  · rw [List.append_nil] at hpast
    exact kept.timely past hpast h
  · rcases List.prefix_concat_iff.1 hpast with rfl | hpast
    · exact hnow
    · exact kept.timely past hpast h
  · simp at one

theorem Move.stake_eq (move : Move Session.Unencumbered s s') (sound : Sound s)
    (effects : List Effect) (h : Handle) : stake effects s' h = stake effects s h := by
  cases move with
  | decode | burn | joinFlush | dropFlush => rfl
  | frame | cancel => exact pushEffect_stake effects h rfl
  | clone _ _ unused absent => exact clone_stake effects h unused absent
  | emit _ inactive decided reserved =>
    exact (emit_stake effects h inactive decided reserved).2 sound.exclusive
  | joinPending _ active => exact joinPending_stake effects h active
  | close order decoder reason => exact close_stake effects h order s decoder reason
  | renegotiate order _ renews msize version =>
    have hstake := renegotiate_stake effects h order s msize version
    have hnone : s.heldByPending h = 0 := by
      refine FinMap.total_eq_zero fun tag p hp => ?_
      rw [(renews tag p hp).2]
      rfl
    omega

/-- The fid of an outstanding operation is reserved, or drained with all others. -/
theorem Sound.vacant (sound : Sound s) (books : Bookkeeping s) {fid : Fid}
    (present : s.pendingByTag[tag]? = some p) (owned : p.continuation.owned = some fid) :
    s.Vacant fid := by
  intro state hstate
  cases hreason : s.terminalReason with
  | none =>
    rw [(books.owning hreason).owned tag p fid present owned] at hstate
    exact (Option.some.inj hstate).symm
  | some reason =>
    rw [books.drained (sound.closing (by rw [hreason]; rfl))] at hstate
    simp at hstate

theorem Kept.settle (kept : Kept events s) (books : Bookkeeping s) (order : HashOrder)
    (present : s.pendingByTag[tag]? = some p) (accepts : p.expected.validate completion = .ok ()) :
    Kept (events ++ [.completed completion]) (s.settled order tag p completion) := by
  refine kept.extend (kept.sound.settle order completion present) (Nat.le_refl _) fun h => ?_
  have hstake := settled_stake (polledEffects events) h order completion present
  have hheld := settle_heldByFids h (s := s.untrack p.operationId tag p)
    (kept.sound.suited tag p present) accepts
    fun fid howned => kept.sound.vacant books present howned
  have hsame : (s.untrack p.operationId tag p).heldByFids h = s.heldByFids h := rfl
  rw [polledEffects_completed, delivered_append, List.count_append, delivered_completed,
    ← kept.balanced h]
  omega

theorem Kept.forget (kept : Kept events s)
    (abandoned : s.abandonedOperations[completion.operationId]? = some expected)
    (accepts : expected.validate completion = .ok ()) :
    Kept (events ++ [.completed completion])
      { s with abandonedOperations := s.abandonedOperations.erase completion.operationId } := by
  refine kept.extend (kept.sound.forget _) (Nat.le_refl _) fun h => ?_
  have hnone : completion.delivered = [] := by
    by_contra hdelivered
    have hdelivers := delivers_of_accepts accepts hdelivered
    rw [kept.sound.forgotten _ _ abandoned] at hdelivers
    cases hdelivers
  rw [polledEffects_completed, delivered_append, delivered_completed, hnone, List.append_nil]
  exact kept.balanced h

theorem Kept.poll (kept : Kept events s) {effect : Option Effect} (step : PollStep s (effect, s'))
    (supplied : s.Supplied) : Kept (events ++ effect.toList.map .polled) s' := by
  refine kept.extend (kept.sound.poll step supplied) ?_ fun h => ?_
  · cases effect <;> simp
  · rw [polledEffects_append, polledEffects_polled, delivered_append, delivered_polled,
      List.append_nil, ← kept.balanced h]
    rcases step.stake_cases (polledEffects events) h kept.sound.cleanup with
      heq | ⟨-, idle, ⟨work, rest, head⟩, none⟩
    · exact heq
    · have hsome := supplied idle work rest head
      rw [none] at hsome
      cases hsome

theorem kept_new {limits : Limits} {context : SessionContext}
    (created : Session.new limits context = .ok s) : Kept [] s := by
  have hcustody := custody_new created
  simp only [Session.new, bind_eq_ok, pure_eq_ok] at created
  obtain ⟨_, -, rfl⟩ := created
  refine ⟨⟨exclusive_of_empty rfl, ?_, ?_, ?_, by simp [Session.initial]⟩, fun h => ?_,
    fun past hpast h => ?_⟩
  · intro tag p hp
    simp [Session.initial] at hp
  · intro id expected hid
    simp [Session.initial] at hid
  · simp [Session.initial]
  · exact Nat.le_zero.1 (hcustody.conserved h)
  · rw [List.prefix_nil.1 hpast]
    exact Nat.le_refl _

/-! ## Runs -/

/-- The calls of a run that loses no handle. -/
def Careful (order : HashOrder) (s : Session) (c : Call) : Prop :=
  Renews Session.Unencumbered order s c ∧ (c = .pollEffect → s.Supplied)

theorem survives_kept : Survives Session.Unencumbered Careful Kept where
  renews permits := permits.1
  new created := kept_new created
  move _ kept step :=
    ⟨kept.sound.move step, fun h => (step.stake_eq kept.sound _ h).trans (kept.balanced h),
      kept.timely⟩
  settle order books kept active _ _ accepts := kept.settle books order active accepts
  forget _ kept abandoned accepts := kept.forget abandoned accepts
  poll _ kept step permits := kept.poll step (permits.2 rfl)

/-- A drained session holds nothing and has nothing left to release. -/
theorem stake_of_drained (sound : Sound s) (books : Bookkeeping s) (drained : s.status = .drained)
    (effects : List Effect) (h : Handle) : stake effects s h = (released effects).count h := by
  unfold Session.status at drained
  split at drained
  · cases drained
  · rename_i hclosing
    split at drained
    · rename_i hempty
      simp only [Bool.and_eq_true, List.isEmpty_iff] at hempty
      obtain ⟨⟨⟨⟨⟨heffects, hpending⟩, -⟩, -⟩, hcleanup⟩, -⟩ := hempty
      have hsome : s.terminalReason.isSome = true := by
        simpa [Option.isNone_iff_eq_none, Option.isSome_iff_ne_none] using hclosing
      have hfids := heldByFids_empty (books.drained (sound.closing hsome)) h
      have hheld : s.heldByPending h = 0 := by
        rw [Session.heldByPending, Std.ExtTreeMap.isEmpty_iff.1 hpending, FinMap.total_empty]
      rw [stake, hfids, hheld, heffects, List.append_nil, Session.promised, hcleanup]
      simp
    · cases drained

/-- How many effects release a handle. -/
def releasesOf (h : Handle) (effects : List Effect) : Nat :=
  effects.countP fun effect => effect.releases && decide (h ∈ effect.names)

theorem releasesOf_le (h : Handle) (effects : List Effect) :
    releasesOf h effects ≤ (released effects).count h := by
  induction effects with
  | nil => exact Nat.le_refl _
  | cons effect effects ih =>
    rw [← List.singleton_append, released_append, List.count_append, List.singleton_append,
      releasesOf, List.countP_cons]
    split
    · rename_i hreleases
      simp only [Bool.and_eq_true, decide_eq_true_eq] at hreleases
      have hpositive : 0 < (released [effect]).count h :=
        List.count_pos_iff.2 (mem_released.2 ⟨effect, List.mem_singleton_self _, hreleases⟩)
      simp only [releasesOf] at ih
      omega
    · simp only [releasesOf] at ih
      omega

theorem releasesOf_pos {h : Handle} {effects : List Effect} (hmem : h ∈ released effects) :
    0 < releasesOf h effects := by
  obtain ⟨effect, heffect, hreleases, hname⟩ := mem_released.1 hmem
  exact List.countP_pos_iff.2 ⟨effect, heffect, by simp [hreleases, hname]⟩

/-- **No handle leaks.** When a session with distinct handles is drained at the end of a careful run,
every handle was released by exactly one effect polled after it was delivered. -/
theorem handles_released_once (events : List Event) (s : Session) (trace : Trace Careful events s)
    (distinct : (delivered events).Nodup) (drained : s.status = .drained) :
    ∀ past completion future, events = past ++ .completed completion :: future →
      ∀ h ∈ completion.delivered, releasesOf h (polledEffects future) = 1 := by
  rintro past completion future rfl h hmem
  have kept := trace.invariant survives_kept
  have hbooks := bookkeeping_of_reachable trace.reachable
  have hpolled : polledEffects (past ++ .completed completion :: future) =
      polledEffects past ++ polledEffects future := by simp [polledEffects]
  have hdelivered : delivered (past ++ .completed completion :: future) =
      delivered past ++ (completion.delivered ++ delivered future) := by simp [delivered]
  have hbalanced := kept.balanced h
  have htimely := kept.timely past (List.prefix_append _ _) h
  have hone := List.nodup_iff_count_le_one.1 distinct h
  have hpositive := List.count_pos_iff.2 hmem
  rw [stake_of_drained kept.sound hbooks drained, hpolled, released_append, List.count_append,
    hdelivered, List.count_append, List.count_append] at hbalanced
  rw [hdelivered, List.count_append, List.count_append] at hone
  have hfuture : (released (polledEffects future)).count h = 1 := by omega
  have hle := releasesOf_le h (polledEffects future)
  have hpos := releasesOf_pos (List.count_pos_iff.1 (Nat.lt_of_lt_of_eq Nat.zero_lt_one hfuture.symm))
  omega

section

variable {order : HashOrder}

theorem careful_receiveFrame (frame : Bytes) (h : s.pendingByTag.isEmpty = true) :
    Careful order s (.receiveFrame frame) := by
  refine ⟨fun _ => ⟨fun _ _ _ tag p hp => ?_, fun _ _ _ => trivial⟩, nofun⟩
  rw [Std.ExtTreeMap.isEmpty_iff.1 h] at hp
  simp at hp

theorem careful_pollEffect (h : s.operationIds.isSome = true) : Careful order s .pollEffect :=
  ⟨trivial, fun _ _ _ _ _ => h⟩

end

/-- The client of `authRun`, and the host closing the session. -/
def authCloseRun : List Call :=
  authRun ++ [.complete (.policy 2 (.ok .authClunked)), .pollEffect, .beginClose, .pollEffect]

theorem careful_authCloseRun : Along Careful .sorted narrowSession authCloseRun :=
  ⟨careful_receiveFrame _ rfl, careful_pollEffect rfl, careful_receiveFrame _ rfl,
    careful_pollEffect rfl, ⟨trivial, nofun⟩, careful_pollEffect rfl, careful_receiveFrame _ rfl,
    careful_pollEffect rfl, ⟨trivial, nofun⟩, careful_pollEffect rfl, ⟨trivial, nofun⟩,
    careful_pollEffect rfl, trivial⟩

theorem handles_released_once_authCloseRun :
    releasesOf (.auth ⟨7⟩)
      (polledEffects ((narrowSession.eventsOfRun .sorted authCloseRun).drop 3)) = 1 := by
  have hcreated : Session.new narrowLimits ⟨⟨1⟩, none⟩ = .ok narrowSession := rfl
  have htrace := Trace.of_new hcreated careful_authCloseRun
  have hdelivered : delivered (narrowSession.eventsOfRun .sorted authCloseRun) = [.auth ⟨7⟩] := by
    rfl
  have hdrained : (narrowSession.run .sorted authCloseRun).status = .drained := by rfl
  refine handles_released_once _ _ htrace ?_ hdrained
    ((narrowSession.eventsOfRun .sorted authCloseRun).take 2)
    (.policy 1 (.ok (.authStarted ⟨0, 0, 1⟩ ⟨7⟩))) _ (by rfl) _ (by decide)
  rw [hdelivered]
  exact List.nodup_singleton _

/-- The client negotiates anew while the host starts to authenticate it. -/
def leakingRun : List Call :=
  [.receiveFrame versionFrame, .pollEffect, .receiveFrame authFrame, .pollEffect,
    .receiveFrame versionFrame, .pollEffect, .pollEffect,
    .complete (.policy 1 (.ok (.authStarted ⟨0, 0, 1⟩ ⟨7⟩))), .beginClose, .pollEffect]

/-- The handle that the abandoned operation delivers is released by nobody. -/
theorem leakingRun_leaks : ∃ events s, Trace (fun _ _ _ => True) events s ∧ s.status = .drained ∧
    (delivered events).Nodup ∧ Handle.auth ⟨7⟩ ∈ delivered events ∧
    released (polledEffects events) = [] := by
  have hcreated : Session.new narrowLimits ⟨⟨1⟩, none⟩ = .ok narrowSession := rfl
  have htrace := Trace.of_new hcreated (along_always .sorted narrowSession leakingRun)
  have hdelivered : delivered (narrowSession.eventsOfRun .sorted leakingRun) = [.auth ⟨7⟩] := by
    rfl
  refine ⟨_, _, htrace, by rfl, ?_, ?_, by rfl⟩
  · rw [hdelivered]
    exact List.nodup_singleton _
  · rw [hdelivered]
    exact List.mem_singleton_self _

end W9pt.Connection
